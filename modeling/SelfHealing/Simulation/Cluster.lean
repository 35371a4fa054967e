import SelfHealing.Cluster

/-!
A cluster in memory: it holds pods, refuses the calls it is told to refuse, and tells prepared stories to those who
watch a pod.
-/

namespace SelfHealing.Simulation

open Time Watch

inductive CallKind
  | list
  | get
  | update
  | delete
  | watch
  deriving DecidableEq, Repr

def CallKind.operation : CallKind → String
  | list => "list pods"
  | get => "get pod"
  | update => "update pod"
  | delete => "delete pod"
  | watch => "watch pods"

structure Call where
  kind : CallKind
  space : String
  name : String
  deriving DecidableEq, Repr

structure Refusal where
  kind : CallKind
  name : Option String
  message : String
  deriving DecidableEq, Repr

structure PodStore where
  pods : List Pod
  refusals : List Refusal
  stories : List (String × Script PodItem)
  calls : List Call
  deriving Repr

namespace PodStore

def defaultSpace : String := "default"

/-- A watch without a story of its own sees that the pod is gone. -/
def gone : Script PodItem :=
  ⟨[⟨.zero, .ok .listStarted⟩, ⟨.zero, .ok .listDone⟩], .silent⟩

def holds (space name : String) (p : Pod) : Bool :=
  p.name = some name && p.space = some (if space.isEmpty then defaultSpace else space)

def refusal? (s : PodStore) (c : Call) : Option Error :=
  (s.refusals.find? fun r ↦ r.kind = c.kind && r.name.all (· = c.name)).map fun r ↦
    .clusterApi c.kind.operation r.message

def missing (c : Call) : Error :=
  .clusterApi c.kind.operation ("pods \"" ++ c.name ++ "\" not found")

/-- A call is noted before it is carried out or refused. -/
def serve {α : Type} (c : Call) (body : PodStore → Except Error (α × PodStore)) :
    StateM PodStore (Except Error α) := fun s ↦
  let s := { s with calls := s.calls ++ [c] }
  match s.refusal? c with
  | some e => (.error e, s)
  | none =>
    match body s with
    | .ok (a, s) => (.ok a, s)
    | .error e => (.error e, s)

def find (s : PodStore) (c : Call) : Except Error Pod :=
  match s.pods.find? (holds c.space c.name) with
  | some p => .ok p
  | none => .error (missing c)

def listPods (space : String) : StateM PodStore (Except Error (List PodSummary)) :=
  serve ⟨.list, space, ""⟩ fun s ↦
    .ok ((s.pods.filter fun p ↦ space.isEmpty || p.space = some space).map Pod.summary, s)

def getPod (space name : String) : StateM PodStore (Except Error Pod) :=
  let c : Call := ⟨.get, space, name⟩
  serve c fun s ↦ do return (← s.find c, s)

def replaceFirst (p : Pod → Bool) (new : Pod) : List Pod → List Pod
  | [] => []
  | old :: rest => if p old then new :: rest else old :: replaceFirst p new rest

def replacePod (space name : String) (pod : Pod) : StateM PodStore (Except Error Pod) :=
  let c : Call := ⟨.update, space, name⟩
  serve c fun s ↦ do
    let _ ← s.find c
    return (pod, { s with pods := replaceFirst (holds space name) pod s.pods })

def deletePod (space name : String) : StateM PodStore (Except Error Unit) :=
  let c : Call := ⟨.delete, space, name⟩
  serve c fun s ↦ do
    let _ ← s.find c
    return ((), { s with pods := s.pods.eraseP (holds space name) })

def watchPod (space name : String) : StateM PodStore (Except Error (Script PodItem)) :=
  serve ⟨.watch, space, name⟩ fun s ↦ .ok ((s.stories.lookup name).getD gone, s)

def cluster : Cluster (StateM PodStore) :=
  ⟨listPods, getPod, replacePod, deletePod, watchPod⟩

end PodStore

end SelfHealing.Simulation
