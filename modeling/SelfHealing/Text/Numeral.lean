/-!
Whole numbers in decimal and hexadecimal, read from and written as characters.
-/

namespace SelfHealing.Text

def digitValue? (radix : Nat) (c : Char) : Option Nat :=
  let v :=
    if '0' ≤ c ∧ c ≤ '9' then c.toNat - '0'.toNat
    else if 'a' ≤ c ∧ c ≤ 'z' then c.toNat - 'a'.toNat + 10
    else if 'A' ≤ c ∧ c ≤ 'Z' then c.toNat - 'A'.toNat + 10
    else radix
  if v < radix then some v else none

def isDecimalDigit (c : Char) : Bool :=
  '0' ≤ c && c ≤ '9'

def foldDigits? (radix : Nat) : Nat → List Char → Option Nat
  | acc, [] => some acc
  | acc, c :: rest => do
    let d ← digitValue? radix c
    foldDigits? radix (acc * radix + d) rest

def natural? (radix : Nat) (cs : List Char) : Option Nat :=
  if cs.isEmpty then none else foldDigits? radix 0 cs

/-- An optional plus sign and decimal digits, of a value up to `max`. -/
def unsigned? (max : Nat) (cs : List Char) : Option Nat := do
  let digits := match cs with
    | '+' :: rest => rest
    | _ => cs
  let n ← natural? 10 digits
  if n ≤ max then some n else none

def lowerDigit (d : Nat) : Char :=
  if d < 10 then Char.ofNat ('0'.toNat + d) else Char.ofNat ('a'.toNat + (d - 10))

/-- Digits without leading zeros, least value first in the recursion and last in the text. -/
def digits (radix n : Nat) : List Char :=
  if h : 2 ≤ radix ∧ radix ≤ n then
    have : n / radix < n := Nat.div_lt_self (by omega) (by omega)
    digits radix (n / radix) ++ [lowerDigit (n % radix)]
  else [lowerDigit n]
termination_by n

def paddedDigits (radix width n : Nat) : List Char :=
  let ds := digits radix n
  List.replicate (width - ds.length) '0' ++ ds

def hexadecimal64 (n : UInt64) : String :=
  String.ofList (paddedDigits 16 16 n.toNat)

end SelfHealing.Text
