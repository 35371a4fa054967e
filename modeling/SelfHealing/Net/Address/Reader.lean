import SelfHealing.Net.Address
import SelfHealing.Text.Numeral

/-!
Reading an address. An IPv4 number has no leading zero; an IPv6 group has one to four hexadecimal digits,
`::` stands for at least one zero group, and the last two groups may be written in dotted form.
-/

namespace SelfHealing.Net

open Text

def spanDigits (radix : Nat) (cs : List Char) : List Char × List Char :=
  cs.span fun c ↦ (digitValue? radix c).isSome

def readOctet? (cs : List Char) : Option (UInt8 × List Char) :=
  let (ds, rest) := spanDigits 10 cs
  if 3 < ds.length ∨ (ds.head? = some '0' ∧ 1 < ds.length) then none
  else do
    let n ← natural? 10 ds
    if n < 256 then some (n.toUInt8, rest) else none

def readGroup? (cs : List Char) : Option (UInt16 × List Char) :=
  let (ds, rest) := spanDigits 16 cs
  if 4 < ds.length then none
  else do
    let n ← natural? 16 ds
    some (n.toUInt16, rest)

def readChar? (c : Char) : List Char → Option (List Char)
  | [] => none
  | d :: rest => if c = d then some rest else none

def readAddress4? (cs : List Char) : Option (Address4 × List Char) := do
  let (a, cs) ← readOctet? cs
  let (b, cs) ← readOctet? (← readChar? '.' cs)
  let (c, cs) ← readOctet? (← readChar? '.' cs)
  let (d, cs) ← readOctet? (← readChar? '.' cs)
  some (⟨a, b, c, d⟩, cs)

def Address4.groups (address : Address4) : List UInt16 :=
  [address.a.toUInt16 * 256 + address.b.toUInt16, address.c.toUInt16 * 256 + address.d.toUInt16]

/-- Groups read from the front of a text, and whether the last two came in dotted form. -/
structure GroupRun where
  groups : List UInt16
  dotted : Bool
  rest : List Char

/-- Up to `limit` groups with colons between them; dotted form needs room for two. Reading stops
before the first separator that no group follows. -/
def readGroups (limit : Nat) (first : Bool) (cs : List Char) : GroupRun :=
  match limit with
  | 0 => ⟨[], false, cs⟩
  | limit + 1 =>
    match if first then some cs else readChar? ':' cs with
    | none => ⟨[], false, cs⟩
    | some body =>
      match if 0 < limit then readAddress4? body else none with
      | some (address, rest) => ⟨address.groups, true, rest⟩
      | none =>
        match readGroup? body with
        | none => ⟨[], false, cs⟩
        | some (group, rest) =>
          let more := readGroups limit false rest
          ⟨group :: more.groups, more.dotted, more.rest⟩

def ofGroups? (groups : List UInt16) : Option Address6 :=
  if h : groups.length = 8 then some ⟨groups, h⟩ else none

def readAddress6? (cs : List Char) : Option (Address6 × List Char) := do
  let head := readGroups 8 true cs
  if head.groups.length = 8 then
    return (← ofGroups? head.groups, head.rest)
  if head.dotted then none
  let cs ← readChar? ':' (← readChar? ':' head.rest)
  let tail := readGroups (7 - head.groups.length) true cs
  let zeros := List.replicate (8 - head.groups.length - tail.groups.length) 0
  return (← ofGroups? (head.groups ++ zeros ++ tail.groups), tail.rest)

def readAddress? (cs : List Char) : Option (Address × List Char) :=
  match readAddress4? cs with
  | some (address, rest) => some (.v4 address, rest)
  | none => (readAddress6? cs).map fun (address, rest) ↦ (.v6 address, rest)

def Address.parse? (s : String) : Option Address :=
  match readAddress? s.toList with
  | some (address, []) => some address
  | _ => none

end SelfHealing.Net
