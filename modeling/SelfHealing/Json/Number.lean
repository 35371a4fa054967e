import SelfHealing.Data.Value
import SelfHealing.Text.Numeral

/-!
The value of a number's text. A whole number of 64 bits is exact. Any other number keeps as many leading digits as
64 bits hold, turns them into a double, and scales that once by a power of ten.
-/

namespace SelfHealing.Json

open Data Text

def maxUnsigned : Nat := 0xFFFFFFFFFFFFFFFF

structure Literal where
  negative : Bool
  whole : List Char
  fraction : Option (List Char)
  exponent : Option Int
  deriving DecidableEq, Repr

/-- Digits taken into a significand, and the power of ten that it is to be scaled by. -/
structure Scaled where
  significand : Nat
  exponent : Int
  deriving DecidableEq, Repr

/-- Digits before the point: the first that no longer fits and all after it count as zeros. -/
def takeWhole : Nat → List Char → Scaled
  | acc, [] => ⟨acc, 0⟩
  | acc, c :: rest =>
    let next := acc * 10 + (c.toNat - '0'.toNat)
    if next ≤ maxUnsigned then takeWhole next rest else ⟨acc, (rest.length : Int) + 1⟩

/-- Digits after the point: the first that no longer fits ends them. -/
def takeFraction : Scaled → List Char → Scaled
  | acc, [] => acc
  | acc, c :: rest =>
    let next := acc.significand * 10 + (c.toNat - '0'.toNat)
    if next ≤ maxUnsigned then takeFraction ⟨next, acc.exponent - 1⟩ rest else acc

def powerOfTen (n : Nat) : Float := Float.ofScientific 1 false n

def scale? : Nat → Float → Int → Option Float
  | 0, f, _ => some f
  | steps + 1, f, exponent =>
    if exponent.natAbs ≤ 308 then
      if 0 ≤ exponent then
        let scaled := f * powerOfTen exponent.natAbs
        if scaled.isInf then none else some scaled
      else some (f / powerOfTen exponent.natAbs)
    else if f == 0 then some f
    else if 0 ≤ exponent then none
    else scale? steps (f / powerOfTen 308) (exponent + 308)

def Literal.isWhole (lit : Literal) : Bool :=
  lit.fraction.isNone && lit.exponent.isNone

def Literal.scaled (lit : Literal) : Scaled :=
  let whole := takeWhole 0 lit.whole
  let parts := takeFraction whole (lit.fraction.getD [])
  ⟨parts.significand, parts.exponent + lit.exponent.getD 0⟩

def Literal.toReal? (lit : Literal) : Option Number := do
  let parts := lit.scaled
  let f ← scale? 3 (Float.ofNat parts.significand) parts.exponent
  some (.real (.ofFloat (if lit.negative then -f else f)))

/-- The value of a number's text; `none` when it is out of range. Minus zero is a double. -/
def Literal.value? (lit : Literal) : Option Number :=
  let whole := takeWhole 0 lit.whole
  if lit.isWhole ∧ whole.exponent = 0 then
    if !lit.negative then some (.natural whole.significand)
    else if 0 < whole.significand ∧ whole.significand ≤ 0x8000000000000000 then
      some (.negative (-(whole.significand : Int)))
    else some (.real (.ofFloat (-(Float.ofNat whole.significand))))
  else lit.toReal?

end SelfHealing.Json
