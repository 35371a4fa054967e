import SelfHealing.Cluster.Location
import SelfHealing.Cluster.Pod
import SelfHealing.Task
import SelfHealing.Watch.Deletion

/-!
What is asked of the cluster. An empty namespace means all of them in a listing, and the default one elsewhere.
-/

namespace SelfHealing

structure Cluster (m : Type → Type) where
  listPods (space : String) : m (Except Error (List PodSummary))
  getPod (space name : String) : m (Except Error Pod)
  replacePod (space name : String) (pod : Pod) : m (Except Error Pod)
  deletePod (space name : String) : m (Except Error Unit)
  watchPod (space name : String) : m (Except Error (Time.Script Watch.PodItem))

namespace Cluster

def locationIn (pods : List PodSummary) (name : String) : HostLocation :=
  match pods.find? (·.name = name) with
  | some p => ⟨p.node, p.hostText⟩
  | none => .unknown

def resolveHost {m : Type → Type} [Monad m] (c : Cluster m) (pod space : String) :
    Task m HostLocation := do
  let pods ← Task.call (c.listPods space)
  return locationIn pods pod

end Cluster

end SelfHealing
