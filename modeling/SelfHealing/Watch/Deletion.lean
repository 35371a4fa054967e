import SelfHealing.Error
import SelfHealing.Time.Script

/-!
The wait for a deleted pod to go. The pod is gone when the cluster says so, or when a listing of the pods
ends that did not show it. The wait has a bound, and an event that comes just then still counts.
-/

namespace SelfHealing.Watch

open Time

inductive PodEvent
  | listStarted
  | applied
  | deleted
  | listDone
  deriving DecidableEq, Repr

abbrev PodItem := Except Error PodEvent

inductive Outcome
  | confirmed
  | timedOut
  | closed
  deriving DecidableEq, Repr

structure Listing where
  active : Bool
  seen : Bool
  deriving DecidableEq, Repr

namespace Listing

def none : Listing := ⟨false, false⟩

/-- The state after an event; no state is left once the pod is gone. -/
def next? (l : Listing) : PodEvent → Option Listing
  | .deleted => .none
  | .listStarted => some ⟨true, false⟩
  | .applied => some ⟨l.active, l.seen || l.active⟩
  | .listDone => if l.active && !l.seen then .none else some ⟨false, l.seen⟩

/-- An error on the stream changes nothing. -/
def step? (l : Listing) : PodItem → Option Listing
  | .ok event => l.next? event
  | .error _ => some l

end Listing

/-- How a wait ended, how long it took, and how many items it saw. -/
structure Waited where
  outcome : Outcome
  elapsed : Duration
  taken : Nat
  deriving DecidableEq, Repr

def waitFrom (limit elapsed : Duration) (l : Listing) (taken : Nat) (ending : Ending) :
    List (Timed PodItem) → Waited
  | [] =>
    match ending with
    | .closed => ⟨.closed, elapsed, taken⟩
    | .silent => ⟨.timedOut, limit, taken⟩
  | t :: rest =>
    let now := elapsed + t.delay
    if limit < now then ⟨.timedOut, limit, taken⟩
    else
      match l.step? t.item with
      | none => ⟨.confirmed, now, taken + 1⟩
      | some l => waitFrom limit now l (taken + 1) ending rest

def wait (limit : Duration) (script : Script PodItem) : Waited :=
  waitFrom limit .zero .none 0 script.ending script.items

/-- The wait from a moment on; there is none when its end is past the last moment of the clock. -/
def waitFrom? (start : Instant) (limit : Duration) (script : Script PodItem) : Option Waited :=
  (start.add? limit).map fun _ ↦ wait limit script

end SelfHealing.Watch
