import SelfHealing.Cluster.Watcher
import SelfHealing.Kubernetes.Request
import SelfHealing.Kubernetes.Response

/-!
What a watcher tells when the server's answers are known in advance. It lists page by page, follows the changes from
the version of the listing, follows again when a watch ends, and lists again when that version is gone. After an
error it waits for a while.
-/

namespace SelfHealing.Kubernetes.Watcher

open Time Watch

inductive Phase
  | listing (continuation : Option String)
  | following (version : String)
  deriving DecidableEq, Repr

structure Scope where
  space : String
  selector : String
  deriving DecidableEq, Repr

def Scope.ofPod (space name : String) : Scope := ⟨space, s!"metadata.name={name}"⟩

def Phase.request (s : Scope) : Phase → Request
  | listing continuation => .page s.space s.selector continuation
  | following version => .follow s.space s.selector version

def operation : String := "watch pods"

def failed (reason : String) : WatcherItem := .error (.clusterApi operation reason)

/-- The items of a response, and the phase after them. -/
structure Progress where
  items : List WatcherItem
  next : Phase
  deriving Repr

def restart (reason : String) : Progress := ⟨[failed reason, .ok .init], .listing none⟩

def Progress.cons (item : WatcherItem) (p : Progress) : Progress := { p with items := item :: p.items }

def noVersion : String := "no metadata.resourceVersion in watch result (does resource support watch?)"

def listed (page : Page) : Progress :=
  let seen := page.pods.map fun _ ↦ .ok .initApply
  match page.continuation, page.version with
  | some token, _ => ⟨seen, .listing (some token)⟩
  | none, some version => ⟨seen ++ [.ok .initDone], .following version⟩
  | none, none => restart noVersion

def gone : Nat := 410

def followed (version : String) : List (Except String Change) → Progress
  | [] => ⟨[], .following version⟩
  | change :: rest =>
    let seen := fun (pod : Pod) (event : WatcherEvent) ↦
      match filled? pod.version with
      | some version => (followed version rest).cons (.ok event)
      | none => restart noVersion
    match change with
    | .ok (.added pod) | .ok (.modified pod) => seen pod .apply
    | .ok (.deleted pod) => seen pod .delete
    | .ok (.bookmark version) => followed version rest
    | .ok (.failed report) =>
      if report.code = gone then restart report.message
      else (followed version rest).cons (failed report.message)
    | .error reason => (followed version rest).cons (failed reason)

def Phase.advance (p : Phase) (a : Answer) : Progress :=
  match p with
  | listing _ =>
    match a with
    | .error reason => restart reason
    | .ok r =>
      match r.page with
      | .ok page => listed page
      | .error reason => restart reason
  | following version =>
    match a with
    | .error reason => ⟨[failed reason], p⟩
    | .ok r => followed version r.changes

/-- How long the watcher waits after an error, of which some came before without success between them. -/
def backoff (failures : Nat) : Duration := .ofMillis (min (800 * Nat.pow 2 failures) 30000)

def roundTrip : Duration := ⟨1⟩

structure Step where
  delay : Duration
  requests : List Request
  item : WatcherItem
  deriving Repr

/-- What has happened since the last item. -/
structure Pace where
  delay : Duration
  requests : List Request
  failures : Nat
  deriving Repr

def Pace.start : Pace := ⟨.zero, [], 0⟩

def Pace.ask (p : Pace) (r : Request) : Pace :=
  { p with delay := p.delay + roundTrip, requests := p.requests ++ [r] }

def Pace.after (p : Pace) : WatcherItem → Pace
  | .ok _ => .start
  | .error _ => ⟨backoff p.failures, [], p.failures + 1⟩

/-- The steps that tell some items, and the pace after them. -/
def tell (p : Pace) : List WatcherItem → List Step × Pace
  | [] => ([], p)
  | item :: rest =>
    let (steps, last) := tell (p.after item) rest
    (⟨p.delay, p.requests, item⟩ :: steps, last)

/-- All that the watcher tells, and the requests that are left without an answer. -/
structure Course where
  steps : List Step
  delay : Duration
  pending : List Request
  deriving Repr

def courseFrom (s : Scope) (pace : Pace) (phase : Phase) : List Answer → Course
  | [] => ⟨[], pace.delay, pace.requests ++ [phase.request s]⟩
  | a :: rest =>
    let progress := phase.advance a
    let (steps, last) := tell (pace.ask (phase.request s)) progress.items
    let course := courseFrom s last progress.next rest
    { course with steps := steps ++ course.steps }

def course (s : Scope) (answers : List Answer) : Course :=
  let c := courseFrom s .start (.listing none) answers
  { c with steps := ⟨.zero, [], .ok .init⟩ :: c.steps }

def Course.script (c : Course) : Script WatcherItem :=
  ⟨c.steps.map fun s ↦ ⟨s.delay, s.item⟩, .silent⟩

end SelfHealing.Kubernetes.Watcher
