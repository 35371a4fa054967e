import SelfHealing.Cluster
import SelfHealing.Kubernetes.Request
import SelfHealing.Kubernetes.Response
import SelfHealing.Kubernetes.Watcher

/-!
The calls of a cluster as requests to its server. Without a namespace of their own they go to the client's, but a
listing then goes to all. A pod without a name is refused before anything is sent.
-/

namespace SelfHealing.Kubernetes

/-- A way to the server, and the namespace that is meant where none is given. -/
structure Client (m : Type → Type) where
  space : String
  send : Request → m Answer

namespace Client

variable {m : Type → Type} [Monad m]

def spaceOr (c : Client m) (space : String) : String :=
  if space.isEmpty then c.space else space

def fails {α : Type} (operation reason : String) : Except Error α :=
  .error (.clusterApi operation reason)

def ask {α : Type} (c : Client m) (operation : String) (r : Request)
    (read : Response → Except String α) : m (Except Error α) := do
  if !r.isValid then return fails operation "failed to build request"
  match ← c.send r with
  | .error reason => return fails operation reason
  | .ok response =>
    match read response with
    | .ok a => return .ok a
    | .error reason => return fails operation reason

def askFor {α : Type} (c : Client m) (operation name : String) (r : Request)
    (read : Response → Except String α) : m (Except Error α) := do
  if name.isEmpty then return fails operation "A non-empty name is required"
  c.ask operation r read

def listPods (c : Client m) (space : String) : m (Except Error (List PodSummary)) :=
  c.ask "list pods" (.list (if space.isEmpty then none else some space)) fun r ↦ do
    return (← r.page).pods.map Pod.summary

def getPod (c : Client m) (space name : String) : m (Except Error Pod) :=
  c.askFor "get pod" name (.read (c.spaceOr space) name) Response.pod

def replacePod (c : Client m) (space name : String) (pod : Pod) : m (Except Error Pod) :=
  c.askFor "update pod" name (.replace (c.spaceOr space) name pod) Response.pod

def deletePod (c : Client m) (space name : String) : m (Except Error Unit) :=
  c.askFor "delete pod" name (.remove (c.spaceOr space) name) Response.deletion

def course (c : Client m) (space name : String) (answers : List Answer) : Watcher.Course :=
  Watcher.course (.ofPod (c.spaceOr space) name) answers

end Client

end SelfHealing.Kubernetes
