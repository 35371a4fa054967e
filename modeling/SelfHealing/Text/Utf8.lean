/-!
Octets and characters. `encode` writes a text as octets; `decodeLossy` reads octets as text and
puts one U+FFFD where a maximal run of octets begins a character and does not finish it, or where
an octet cannot begin one.
-/

namespace SelfHealing.Text

abbrev Octets := List UInt8

def encodeChar (c : Char) : Octets :=
  let v := c.val.toNat
  if v < 0x80 then [v.toUInt8]
  else if v < 0x800 then [(0xc0 + v / 0x40).toUInt8, (0x80 + v % 0x40).toUInt8]
  else if v < 0x10000 then
    [(0xe0 + v / 0x1000).toUInt8, (0x80 + v / 0x40 % 0x40).toUInt8, (0x80 + v % 0x40).toUInt8]
  else
    [(0xf0 + v / 0x40000).toUInt8, (0x80 + v / 0x1000 % 0x40).toUInt8,
      (0x80 + v / 0x40 % 0x40).toUInt8, (0x80 + v % 0x40).toUInt8]

def encode (s : String) : Octets :=
  s.toList.flatMap encodeChar

def replacement : Char := '\uFFFD'

/-- A character under way: how many octets it still needs, the range of the next one, and the
value so far. Only the octet after the first has a range narrower than `80..BF`. -/
structure Partial where
  needed : Nat
  low : UInt8
  high : UInt8
  value : Nat
  deriving DecidableEq, Repr

inductive FirstOctet
  | ascii (c : Char)
  | start (p : Partial)
  | invalid

def firstOctet (b : UInt8) : FirstOctet :=
  if b < 0x80 then .ascii (Char.ofNat b.toNat)
  else if b < 0xc2 then .invalid
  else if b < 0xe0 then .start ⟨1, 0x80, 0xbf, b.toNat - 0xc0⟩
  else if b == 0xe0 then .start ⟨2, 0xa0, 0xbf, 0⟩
  else if b == 0xed then .start ⟨2, 0x80, 0x9f, 0xd⟩
  else if b < 0xf0 then .start ⟨2, 0x80, 0xbf, b.toNat - 0xe0⟩
  else if b == 0xf0 then .start ⟨3, 0x90, 0xbf, 0⟩
  else if b < 0xf4 then .start ⟨3, 0x80, 0xbf, b.toNat - 0xf0⟩
  else if b == 0xf4 then .start ⟨3, 0x80, 0x8f, 4⟩
  else .invalid

/-- One octet from between characters: what it writes and what it leaves under way. -/
def decodeFirst (b : UInt8) : List Char × Option Partial :=
  match firstOctet b with
  | .ascii c => ([c], none)
  | .start p => ([], some p)
  | .invalid => ([replacement], none)

/-- One octet. An octet that does not continue the character under way ends it as U+FFFD and is
then read anew. -/
def decodeStep (state : Option Partial) (b : UInt8) : List Char × Option Partial :=
  match state with
  | none => decodeFirst b
  | some p =>
    if p.low ≤ b ∧ b ≤ p.high then
      let value := p.value * 0x40 + (b.toNat - 0x80)
      if p.needed ≤ 1 then ([Char.ofNat value], none)
      else ([], some ⟨p.needed - 1, 0x80, 0xbf, value⟩)
    else
      let (out, next) := decodeFirst b
      (replacement :: out, next)

def decodeFrom (state : Option Partial) : Octets → List Char
  | [] => if state.isSome then [replacement] else []
  | b :: rest =>
    let (out, next) := decodeStep state b
    out ++ decodeFrom next rest

def decodeLossy (bytes : Octets) : String :=
  String.ofList (decodeFrom none bytes)

end SelfHealing.Text
