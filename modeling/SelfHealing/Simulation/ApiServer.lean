import SelfHealing.Kubernetes.Client

/-!
A server of a cluster whose answers are prepared. It answers one request after the other and notes them all; once the
answers are used up, a request never ends.
-/

namespace SelfHealing.Simulation

open Kubernetes Time Watch

structure ApiServer where
  answers : List Answer
  requests : List Request
  deriving Repr

/-- Work with the server; there is no result when something is waited for that never comes. -/
abbrev Exchange := OptionT (StateM ApiServer)

namespace ApiServer

def send (r : Request) : Exchange Answer := fun s ↦
  let s := { s with requests := s.requests ++ [r] }
  match s.answers with
  | [] => (none, s)
  | a :: rest => (some a, { s with answers := rest })

def client (space : String) : Client Exchange := ⟨space, send⟩

def afterItems (s : ApiServer) (c : Watcher.Course) (count : Nat) : ApiServer :=
  let asked := (c.steps.take count).flatMap Watcher.Step.requests
  { answers := s.answers.drop asked.length, requests := s.requests ++ asked }

/-- The server after a watcher has told all it ever will and waits for an answer. -/
def afterAll (s : ApiServer) (c : Watcher.Course) : ApiServer :=
  let s := s.afterItems c c.steps.length
  { answers := [], requests := s.requests ++ c.pending }

def opened {α : Type} (course : List Answer → Watcher.Course)
    (body : ApiServer → Watcher.Course → Script PodItem → Nat → α × ApiServer) :
    Exchange (Except Error α) := fun s ↦
  let c := course s.answers
  match Watch.open? c.script with
  | none => (none, s.afterAll c)
  | some o =>
    match o.result with
    | .error e => (some (.error e), s.afterItems c o.taken)
    | .ok script =>
      let (result, s) := body s c script o.taken
      (some (.ok result), s)

def watchItems (course : List Answer → Watcher.Course) (count : Nat) :
    Exchange (Except Error (List PodItem × Bool)) :=
  opened course fun s c script taken ↦
    let items := script.items.map Timed.item
    let idle := items.length < count
    ((items.take count, idle), if idle then s.afterAll c else s.afterItems c (max taken count))

def elapsed (script : Script PodItem) : Duration :=
  script.items.foldl (fun d t ↦ d + t.delay) .zero

/-- The wait for a deletion. The request after the last item is made only if there is time for it. -/
def waitDeleted (course : List Answer → Watcher.Course) (limit : Duration) :
    Exchange (Except Error Waited) :=
  opened course fun s c script taken ↦
    let w := Watch.wait limit script
    let further := w.outcome = .timedOut && w.taken = script.items.length &&
      elapsed script + c.delay < limit
    (w, if further then s.afterAll c else s.afterItems c (max taken w.taken))

def step {α : Type} (s : ApiServer) (x : Exchange α) : Option α × ApiServer :=
  x.run { s with requests := [] }

end ApiServer

end SelfHealing.Simulation
