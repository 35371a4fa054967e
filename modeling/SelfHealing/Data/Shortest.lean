import SelfHealing.Data.Value
import SelfHealing.Text.Numeral

/-!
The shortest decimal that reads back as a given double, and of the shortest ones the nearest.
-/

namespace SelfHealing.Data

structure Binary where
  mantissa : Nat
  exponent : Int
  deriving DecidableEq, Repr

structure Decimal where
  digits : Nat
  exponent : Int
  deriving DecidableEq, Repr

def Double.isNegative (x : Double) : Bool := 0x8000000000000000 ≤ x.bits.toNat

/-- The bit in front of the 52 stored ones of a mantissa. -/
def hiddenBit : Nat := 0x10000000000000

def Double.magnitude (x : Double) : Binary :=
  let biased : Nat := x.bits.toNat / hiddenBit % 0x800
  let fraction : Nat := x.bits.toNat % hiddenBit
  if biased = 0 then ⟨fraction, -1074⟩ else ⟨fraction + hiddenBit, (biased : Int) - 1075⟩

structure Ratio where
  num : Nat
  den : Nat

def Ratio.le (a b : Ratio) : Bool := a.num * b.den ≤ b.num * a.den

def Ratio.lt (a b : Ratio) : Bool := a.num * b.den < b.num * a.den

def scaled (base n : Nat) (exponent : Int) : Ratio :=
  match exponent with
  | .ofNat e => ⟨n * base.pow e, 1⟩
  | .negSucc e => ⟨n, base.pow (e + 1)⟩

/-- The reals that round to a double, as the two ends around it; the ends belong to it when the
mantissa is even. -/
structure Interval where
  low : Ratio
  high : Ratio
  closed : Bool

def Binary.interval (b : Binary) : Interval :=
  let narrow := b.mantissa = hiddenBit ∧ -1074 < b.exponent
  let low := if narrow then scaled 2 (4 * b.mantissa - 1) (b.exponent - 2)
    else scaled 2 (2 * b.mantissa - 1) (b.exponent - 1)
  ⟨low, scaled 2 (2 * b.mantissa + 1) (b.exponent - 1), b.mantissa % 2 = 0⟩

def Interval.contains (i : Interval) (r : Ratio) : Bool :=
  if i.closed then i.low.le r && r.le i.high else i.low.lt r && r.lt i.high

def Ratio.distance (a b : Ratio) : Ratio :=
  ⟨(a.num * b.den - b.num * a.den) + (b.num * a.den - a.num * b.den), a.den * b.den⟩

/-- The neighbours of a number among the multiples of a power of ten that lie in the interval, nearest first. -/
def onGrid (value : Ratio) (i : Interval) (exponent : Int) : Option Decimal :=
  let quotient := match exponent with
    | .ofNat e => value.num / (value.den * Nat.pow 10 e)
    | .negSucc e => value.num * Nat.pow 10 (e + 1) / value.den
  let below := scaled 10 quotient exponent
  let above := scaled 10 (quotient + 1) exponent
  let hasBelow := 0 < quotient && i.contains below
  let hasAbove := i.contains above
  if hasBelow && hasAbove then
    let (toBelow, toAbove) := (value.distance below, value.distance above)
    if toBelow.lt toAbove || (toBelow.le toAbove && quotient % 2 = 0) then some ⟨quotient, exponent⟩
    else some ⟨quotient + 1, exponent⟩
  else if hasBelow then some ⟨quotient, exponent⟩
  else if hasAbove then some ⟨quotient + 1, exponent⟩
  else none

/-- The coarsest of the next `steps` grids that has a point in the interval, going down from an exponent. -/
def searchGrid (value : Ratio) (i : Interval) : Nat → Int → Decimal
  | 0, exponent => ⟨0, exponent⟩
  | steps + 1, exponent =>
    match onGrid value i exponent with
    | some d => d
    | none => searchGrid value i steps (exponent - 1)

/-- The decimal of the fewest digits that reads back as a positive double. No double is 10 to the power of
310 or more, and none needs a power below the 340th negative one. -/
def Binary.shortest (b : Binary) : Decimal :=
  let value := scaled 2 b.mantissa b.exponent
  searchGrid value b.interval 651 310

end SelfHealing.Data
