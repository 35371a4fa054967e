import SelfHealing.Data.Shortest
import SelfHealing.Text.Numeral

/-!
Writing a value as JSON, without blanks, and the text of a double in it.
-/

namespace SelfHealing.Json

open Data Text

def zeros (n : Nat) : List Char := List.replicate n '0'

def integerChars (n : Int) : List Char :=
  if n < 0 then '-' :: digits 10 n.natAbs else digits 10 n.natAbs

/-- A positive decimal, written with a point where its first digit stands for a power of ten from the fifth negative
one to the fifteenth, else in scientific form. -/
def decimalChars (d : Decimal) : List Char :=
  let ds := digits 10 d.digits
  let point := (ds.length : Int) + d.exponent
  if 0 ≤ d.exponent ∧ point ≤ 16 then ds ++ zeros d.exponent.natAbs ++ ['.', '0']
  else if 0 < point ∧ point ≤ 16 then ds.take point.natAbs ++ '.' :: ds.drop point.natAbs
  else if -5 < point ∧ point ≤ 0 then ['0', '.'] ++ zeros point.natAbs ++ ds
  else
    let fraction := if ds.length = 1 then [] else '.' :: ds.drop 1
    ds.take 1 ++ fraction ++ 'e' :: integerChars (point - 1)

def doubleChars (x : Double) : List Char :=
  let magnitude := x.magnitude
  let text := if magnitude.mantissa = 0 then ['0', '.', '0'] else decimalChars magnitude.shortest
  if x.isNegative then '-' :: text else text

def numberChars : Number → List Char
  | .natural n => digits 10 n
  | .negative n => integerChars n
  | .real x => doubleChars x

def escapeChar (c : Char) : List Char :=
  match c with
  | '"' => ['\\', '"']
  | '\\' => ['\\', '\\']
  | '\n' => ['\\', 'n']
  | '\r' => ['\\', 'r']
  | '\t' => ['\\', 't']
  | '\x08' => ['\\', 'b']
  | '\x0c' => ['\\', 'f']
  | c => if c.toNat < 0x20 then '\\' :: 'u' :: paddedDigits 16 4 c.toNat else [c]

def stringChars (s : String) : List Char :=
  '"' :: (s.toList.flatMap escapeChar ++ ['"'])

def keyChars : Key → List Char
  | .name s => stringChars s
  | .position n => '"' :: (digits 10 n ++ ['"'])

mutual

def valueChars : Value → List Char
  | .null | .unreadable => "null".toList
  | .bool true => "true".toList
  | .bool false => "false".toList
  | .number n => numberChars n
  | .string s => stringChars s
  | .array items => '[' :: (itemsChars true items ++ [']'])
  | .object fields => '\x7b' :: (fieldsChars true fields ++ ['\x7d'])

def itemsChars (first : Bool) : List Value → List Char
  | [] => []
  | v :: rest => (if first then [] else [',']) ++ valueChars v ++ itemsChars false rest

def fieldsChars (first : Bool) : List (Key × Value) → List Char
  | [] => []
  | (key, v) :: rest =>
    (if first then [] else [',']) ++ keyChars key ++ ':' :: valueChars v ++ fieldsChars false rest

end

def render (v : Value) : String :=
  String.ofList (valueChars v)

end SelfHealing.Json
