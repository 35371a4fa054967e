import SelfHealing.Time.Duration

/-!
Streams of events over time, told in advance: every item comes a while after the one before it.
-/

namespace SelfHealing.Time

structure Timed (α : Type) where
  delay : Duration
  item : α
  deriving DecidableEq, Repr

/-- After the last item the stream closes at once, or nothing happens any more. -/
inductive Ending
  | closed
  | silent
  deriving DecidableEq, Repr

structure Script (α : Type) where
  items : List (Timed α)
  ending : Ending
  deriving DecidableEq, Repr

end SelfHealing.Time
