import SelfHealing.Net.Address
import SelfHealing.Text.Numeral

/-!
The text of an address: four decimal numbers, or hexadecimal groups in lower case with the first of
the longest runs of two or more zero groups left out. A mapped address ends in dotted form.
-/

namespace SelfHealing.Net

open Text

def Address4.chars (address : Address4) : List Char :=
  digits 10 address.a.toNat ++ '.' :: digits 10 address.b.toNat ++ '.' ::
    digits 10 address.c.toNat ++ '.' :: digits 10 address.d.toNat

/-- A run of zero groups: where it begins and how long it is. -/
structure ZeroRun where
  start : Nat
  length : Nat
  deriving DecidableEq, Repr

def zeroRunAt (groups : List UInt16) (start : Nat) : ZeroRun :=
  ⟨start, ((groups.drop start).takeWhile (· = 0)).length⟩

def longestZeroRun (groups : List UInt16) : ZeroRun :=
  (List.range groups.length).foldl
    (fun best start ↦
      let run := zeroRunAt groups start
      if best.length < run.length then run else best) ⟨0, 0⟩

def groupsChars (groups : List UInt16) : List Char :=
  (List.intersperse [':'] (groups.map fun g ↦ digits 16 g.toNat)).flatten

def Address6.chars (address : Address6) : List Char :=
  match address.mapped? with
  | some inner => "::ffff:".toList ++ inner.chars
  | none =>
    let run := longestZeroRun address.groups
    if 1 < run.length then
      groupsChars (address.groups.take run.start) ++ [':', ':'] ++
        groupsChars (address.groups.drop (run.start + run.length))
    else groupsChars address.groups

def Address.chars : Address → List Char
  | .v4 address => address.chars
  | .v6 address => address.chars

def Address.text (address : Address) : String :=
  String.ofList address.chars

instance : ToString Address := ⟨Address.text⟩

/-- An address with a port; an IPv6 address stands in brackets. -/
def Address.withPort (address : Address) (port : Nat) : String :=
  match address with
  | .v4 _ => s!"{address.text}:{port}"
  | .v6 _ => s!"[{address.text}]:{port}"

end SelfHealing.Net
