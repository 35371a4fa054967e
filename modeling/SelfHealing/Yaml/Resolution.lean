import SelfHealing.Data.Value
import SelfHealing.Text.Numeral
import SelfHealing.Yaml.Node

/-!
What the text of a plain scalar stands for: null, a truth value, a whole number, a fraction, or itself.
-/

namespace SelfHealing.Yaml

open Data Text

def isNull (s : String) : Bool :=
  s = "null" || s = "Null" || s = "NULL" || s = "~"

def bool? : String → Option Bool
  | "true" | "True" | "TRUE" => some true
  | "false" | "False" | "FALSE" => some false
  | _ => none

def dropSign : List Char → List Char
  | '+' :: rest | '-' :: rest => rest
  | cs => cs

def startsWithSign (cs : List Char) : Bool :=
  cs.head? = some '+' || cs.head? = some '-'

/-- Digits after a leading zero, which make no number. -/
def isPaddedNumber (cs : List Char) : Bool :=
  match dropSign cs with
  | '0' :: rest@(_ :: _) => rest.all isDecimalDigit
  | _ => false

def magnitude? (cs : List Char) : Option Nat :=
  match cs with
  | '0' :: 'x' :: rest => natural? 16 rest
  | '0' :: 'o' :: rest => natural? 8 rest
  | '0' :: 'b' :: rest => natural? 2 rest
  | _ => if isPaddedNumber cs then none else natural? 10 cs

structure Whole where
  negative : Bool
  magnitude : Nat

def whole? (cs : List Char) : Option Whole :=
  match cs with
  | '+' :: rest => (magnitude? rest).map (⟨false, ·⟩)
  | '-' :: rest => (magnitude? rest).map (⟨true, ·⟩)
  | _ => (magnitude? cs).map (⟨false, ·⟩)

def Whole.fits (w : Whole) (bits : Nat) : Bool :=
  if w.negative then w.magnitude ≤ Nat.pow 2 (bits - 1) else w.magnitude < Nat.pow 2 bits

/-- What 128 bits hold is a whole number, and anything larger is none. -/
def wideWhole? (s : String) : Option Whole :=
  (whole? s.toList).filter (·.fits 128)

def Whole.value? (w : Whole) : Option Value :=
  if !w.fits 64 then none
  else if w.negative then some (.number (.negative (-(w.magnitude : Int))))
  else some (.natural w.magnitude)

/-- A decimal fraction: the digits before and after the point, and a power of ten. -/
structure Fraction where
  negative : Bool
  digits : List Char
  exponent : Int

def fractionExponent? : List Char → Option Int
  | [] => some 0
  | e :: rest =>
    if e = 'e' || e = 'E' then
      (natural? 10 (dropSign rest)).map fun n ↦ if rest.head? = some '-' then -(n : Int) else n
    else none

def fraction? (cs : List Char) : Option Fraction := do
  let body := dropSign cs
  let whole := body.takeWhile isDecimalDigit
  let rest := body.drop whole.length
  let part := if rest.head? = some '.' then rest.tail.takeWhile isDecimalDigit else []
  let rest := if rest.head? = some '.' then rest.tail.drop part.length else rest
  if whole.isEmpty && part.isEmpty then none
  else some ⟨cs.head? = some '-', whole ++ part, (← fractionExponent? rest) - part.length⟩

/-- The nearest double; `none` when that is infinite. -/
def Fraction.toDouble? (f : Fraction) : Option Double :=
  let digits := f.digits.dropWhile (· = '0')
  let top := (digits.length : Int) + f.exponent
  let x :=
    if digits.isEmpty || top < -400 then 0.0
    else if 400 < top then 1.0 / 0.0
    else
      let n := (natural? 10 digits).getD 0
      if 0 ≤ f.exponent then Float.ofScientific (n * Nat.pow 10 f.exponent.natAbs) false 0
      else Float.ofScientific n true f.exponent.natAbs
  if x.isInf then none else some (.ofFloat (if f.negative then -x else x))

def infinity : Double := ⟨0x7ff0000000000000⟩

def negativeInfinity : Double := ⟨0xfff0000000000000⟩

def notANumber : Double := ⟨0x7ff8000000000000⟩

def double? (s : String) : Option Double :=
  let cs := s.toList
  let unsigned := if cs.head? = some '+' then cs.tail else cs
  if cs.head? = some '+' && startsWithSign unsigned then none
  else if String.ofList unsigned ∈ [".inf", ".Inf", ".INF"] then some infinity
  else if s ∈ ["-.inf", "-.Inf", "-.INF"] then some negativeInfinity
  else if s ∈ [".nan", ".NaN", ".NAN"] then some notANumber
  else (fraction? unsigned).bind Fraction.toDouble?

/-- The value of a plain scalar without a tag; `none` when no value can hold it. -/
def resolvePlain? (s : String) : Option Value :=
  if s.isEmpty || isNull s then some .null
  else
    match bool? s with
    | some b => some (.bool b)
    | none =>
      match wideWhole? s with
      | some w => w.value?
      | none =>
        if isPaddedNumber s.toList then some (.string s)
        else
          match double? s with
          | some x => some (.number (.real x))
          | none => some (.string s)

def standardTag (name : String) : String := "tag:yaml.org,2002:" ++ name

/-- A tag that names a case of a choice. -/
def caseTag? (tag : Option String) : Option String :=
  match tag.map String.toList with
  | some ('!' :: name) => some (String.ofList name)
  | _ => none

/-- The value of a scalar. A tag of a known type has to fit the text, and a case of a choice is no value. -/
def Scalar.value? (s : Scalar) : Option Value :=
  match s.tag with
  | none => if s.style = .plain then resolvePlain? s.text else some (.string s.text)
  | some tag =>
    if (caseTag? s.tag).isSome then none
    else if tag = standardTag "bool" then (bool? s.text).map .bool
    else if tag = standardTag "int" then (wideWhole? s.text).bind Whole.value?
    else if tag = standardTag "float" then (double? s.text).map fun x ↦ .number (.real x)
    else if tag = standardTag "null" then if isNull s.text then some .null else none
    else some (.string s.text)

end SelfHealing.Yaml
