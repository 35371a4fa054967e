/-!
Lengths of time in nanoseconds, and moments of a clock whose seconds are a signed 64-bit count.
-/

namespace SelfHealing.Time

structure Duration where
  nanos : Nat
  deriving DecidableEq, Repr

namespace Duration

def zero : Duration := ⟨0⟩

def ofMillis (n : Nat) : Duration := ⟨n * 1000000⟩

def ofSeconds (n : Nat) : Duration := ⟨n * 1000000000⟩

def wholeMillis (d : Duration) : Nat := d.nanos / 1000000

def wholeSeconds (d : Duration) : Nat := d.nanos / 1000000000

instance : Inhabited Duration := ⟨zero⟩

instance : Add Duration := ⟨fun a b ↦ ⟨a.nanos + b.nanos⟩⟩

instance : LE Duration := ⟨fun a b ↦ a.nanos ≤ b.nanos⟩

instance : LT Duration := ⟨fun a b ↦ a.nanos < b.nanos⟩

instance (a b : Duration) : Decidable (a ≤ b) := inferInstanceAs (Decidable (a.nanos ≤ b.nanos))

instance (a b : Duration) : Decidable (a < b) := inferInstanceAs (Decidable (a.nanos < b.nanos))

/-- What is left of `a` after `b`; `none` once `b` is longer. -/
def sub? (a b : Duration) : Option Duration :=
  if b ≤ a then some ⟨a.nanos - b.nanos⟩ else none

end Duration

/-- A moment of a clock that never goes back, counted from the clock's start. -/
structure Instant where
  nanos : Nat
  deriving DecidableEq, Repr

namespace Instant

instance : Inhabited Instant := ⟨⟨0⟩⟩

instance : LE Instant := ⟨fun a b ↦ a.nanos ≤ b.nanos⟩

instance (a b : Instant) : Decidable (a ≤ b) := inferInstanceAs (Decidable (a.nanos ≤ b.nanos))

def representable (nanos : Nat) : Bool :=
  nanos / 1000000000 < 0x8000000000000000

/-- The moment a duration later; `none` past the last second that the clock can hold. -/
def add? (t : Instant) (d : Duration) : Option Instant :=
  if representable (t.nanos + d.nanos) then some ⟨t.nanos + d.nanos⟩ else none

def after (t : Instant) (d : Duration) : Instant :=
  ⟨t.nanos + d.nanos⟩

def since (later earlier : Instant) : Duration :=
  ⟨later.nanos - earlier.nanos⟩

end Instant

end SelfHealing.Time
