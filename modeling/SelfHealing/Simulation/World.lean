import SelfHealing.Command.Child
import SelfHealing.Recovery.Clock
import SelfHealing.Shell.Process
import SelfHealing.Simulation.Cluster
import SelfHealing.Simulation.Remote
import SelfHealing.Simulation.Server

/-!
A world to run recoveries in: a cluster in memory, hosts with prepared replies or a server to have sessions with, a
shell, a clock that moves only while everything waits, and a record of the lines shown.
-/

namespace SelfHealing.Simulation

open Command Net Recovery Time

structure World where
  pods : PodStore
  hosts : RemoteHosts
  wire : Wire
  time : Instant
  date : Timestamp
  shown : List (Address × String)
  deriving Repr

/-- Work in the world; there is no result when something is waited for that never comes. -/
abbrev Sim := OptionT (StateM World)

namespace World

def withPods {α : Type} (x : StateM PodStore α) : Sim α :=
  OptionT.lift fun w ↦
    let (a, pods) := x w.pods
    (a, { w with pods := pods })

def withHosts {α : Type} (x : StateM RemoteHosts α) : Sim α :=
  OptionT.lift fun w ↦
    let (a, hosts) := x w.hosts
    (a, { w with hosts := hosts })

def cluster : Cluster Sim :=
  let c := PodStore.cluster
  { listPods := fun space ↦ withPods (c.listPods space)
    getPod := fun space name ↦ withPods (c.getPod space name)
    replacePod := fun space name pod ↦ withPods (c.replacePod space name pod)
    deletePod := fun space name ↦ withPods (c.deletePod space name)
    watchPod := fun space name ↦ withPods (c.watchPod space name) }

def reveal : Sink Sim := fun host line ↦
  OptionT.lift fun w ↦ ((), { w with shown := w.shown ++ [(host, line)] })

def discard : Sink Sim := fun _ _ ↦ pure ()

def runThere : Runner Sim := fun t command limit sink ↦ do
  let (result, lines) ← withHosts (RemoteHosts.run t command limit sink.isSome)
  emit sink t.host lines
  return result

def transports : Transports Sim :=
  { runHere := localRunner Shell.child
    runThere := runThere
    pingThere := fun t ↦ withHosts (RemoteHosts.ping t) }

def network : Ssh.Network (StateM World) :=
  { peer := fun t w ↦ (w.wire.peerFor t, w)
    record := fun requests w ↦ ((), { w with wire := w.wire.record requests }) }

def sshTransports (connectTimeout : Duration) : Transports Sim :=
  { runHere := localRunner Shell.child
    runThere := network.runner connectTimeout
    pingThere := network.pinger connectTimeout }

def clock : Clock Sim :=
  { now := OptionT.lift fun w ↦ (w.time, w)
    pass := fun d ↦ OptionT.lift fun w ↦ ((), { w with time := w.time.after d })
    date := OptionT.lift fun w ↦ (w.date, w) }

def quiet (w : World) : World :=
  { w with
    pods := { w.pods with calls := [] }
    hosts := { w.hosts with calls := [] }
    wire := { w.wire with events := [] }
    shown := [] }

/-- Work from a world whose records are empty, and the world after it. -/
def step {α : Type} (w : World) (x : Task Sim α) : Option (Except Error α) × World :=
  let (result, w) := (Task.run x).run w.quiet
  (result.join, w)

end World

end SelfHealing.Simulation
