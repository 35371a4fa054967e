import SelfHealing.Watch.Deletion

/-!
Opening the watch on a pod. A watcher lists first and then follows changes, and starts anew by itself after an error.
Opening reads on to the end of the first listing and fails at an error before it; afterwards all that the watcher
told, and all that it goes on to tell, is in the stream.
-/

namespace SelfHealing.Watch

open Time

inductive WatcherEvent
  | init
  | initApply
  | initDone
  | apply
  | delete
  deriving DecidableEq, Repr

abbrev WatcherItem := Except Error WatcherEvent

def WatcherEvent.podEvent : WatcherEvent → PodEvent
  | init => .listStarted
  | initApply | apply => .applied
  | initDone => .listDone
  | delete => .deleted

def podItem (item : WatcherItem) : PodItem := item.map WatcherEvent.podEvent

/-- The stream or the error, how long it took, and how many items were read. -/
structure Opening where
  result : Except Error (Script PodItem)
  elapsed : Duration
  taken : Nat
  deriving Repr

/-- Opening after some items, the latest first; nothing comes of it when the watcher falls silent too early. -/
def openFrom? (elapsed : Duration) (read : List PodItem) (ending : Ending) :
    List (Timed WatcherItem) → Option Opening
  | [] =>
    match ending with
    | .closed => some ⟨.ok ⟨read.reverse.map (⟨.zero, ·⟩), .closed⟩, elapsed, read.length⟩
    | .silent => none
  | t :: rest =>
    let now := elapsed + t.delay
    let read := podItem t.item :: read
    match t.item with
    | .error e => some ⟨.error e, now, read.length⟩
    | .ok event =>
      if event = .initDone then
        let buffered := read.reverse.map fun item ↦ ⟨.zero, item⟩
        let live := rest.map fun t ↦ ⟨t.delay, podItem t.item⟩
        some ⟨.ok ⟨buffered ++ live, ending⟩, now, read.length⟩
      else openFrom? now read ending rest

def open? (s : Script WatcherItem) : Option Opening :=
  openFrom? .zero [] s.ending s.items

end SelfHealing.Watch
