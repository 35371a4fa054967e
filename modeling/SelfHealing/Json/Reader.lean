import SelfHealing.Json.Number

/-!
Reading a JSON document. Each step takes characters from the front of a text and returns what is left.
-/

namespace SelfHealing.Json

open Data Text

inductive Fault
  | endsEarly
  | malformed
  deriving DecidableEq, Repr

abbrev Taken (α : Type) := α × List Char

def depthLimit : Nat := 127

def isJsonBlank (c : Char) : Bool :=
  c = ' ' || c = '\t' || c = '\n' || c = '\r'

def skipBlank (cs : List Char) : List Char :=
  cs.dropWhile isJsonBlank

/-- A character of a string: a scalar value, or one half of a surrogate pair. -/
inductive Unit16
  | scalar (c : Char)
  | half (n : Nat)

def readHex4 (cs : List Char) : Except Fault (Taken Nat) :=
  match cs with
  | a :: b :: c :: d :: rest =>
    match natural? 16 [a, b, c, d] with
    | some n => .ok (n, rest)
    | none => .error .malformed
  | _ => .error .endsEarly

def simpleEscape? : Char → Option Char
  | '"' => some '"'
  | '\\' => some '\\'
  | '/' => some '/'
  | 'b' => some '\x08'
  | 'f' => some '\x0c'
  | 'n' => some '\n'
  | 'r' => some '\r'
  | 't' => some '\t'
  | _ => none

/-- The pieces of a string up to its closing quote. -/
def readPieces (fuel : Nat) (cs : List Char) : Except Fault (Taken (List Unit16)) :=
  match fuel with
  | 0 => .error .endsEarly
  | fuel + 1 =>
    match cs with
    | [] | ['\\'] => .error .endsEarly
    | '"' :: rest => .ok ([], rest)
    | '\\' :: 'u' :: rest => do
      let (n, rest) ← readHex4 rest
      let (more, rest) ← readPieces fuel rest
      let piece := if 0xd800 ≤ n ∧ n ≤ 0xdfff then Unit16.half n else .scalar (Char.ofNat n)
      .ok (piece :: more, rest)
    | '\\' :: c :: rest =>
      match simpleEscape? c with
      | none => .error .malformed
      | some e => do
        let (more, rest) ← readPieces fuel rest
        .ok (.scalar e :: more, rest)
    | c :: rest =>
      if c.toNat < 0x20 then .error .malformed
      else do
        let (more, rest) ← readPieces fuel rest
        .ok (.scalar c :: more, rest)

/-- The text of the pieces: a high half and a low half make one character, a half alone makes none. -/
def joinPieces? : List Unit16 → Option (List Char)
  | [] => some []
  | .scalar c :: rest => (joinPieces? rest).map (c :: ·)
  | .half hi :: .half lo :: rest =>
    if hi < 0xdc00 ∧ 0xdc00 ≤ lo then
      (joinPieces? rest).map
        (Char.ofNat (0x10000 + (hi - 0xd800) * 0x400 + (lo - 0xdc00)) :: ·)
    else none
  | .half _ :: _ => none

/-- A string whose opening quote has been read: its text, or `none` inside when it has none. -/
def readString (cs : List Char) : Except Fault (Taken (Option String)) := do
  let (pieces, rest) ← readPieces (cs.length + 1) cs
  .ok ((joinPieces? pieces).map String.ofList, rest)

def spanDecimal (cs : List Char) : List Char × List Char :=
  (cs.takeWhile isDecimalDigit, cs.dropWhile isDecimalDigit)

def readDigits (cs : List Char) : Except Fault (Taken (List Char)) :=
  match spanDecimal cs with
  | ([], []) => .error .endsEarly
  | ([], _) => .error .malformed
  | (ds, rest) => .ok (ds, rest)

/-- Digits before the point: a zero stands alone. -/
def readWhole (cs : List Char) : Except Fault (Taken (List Char)) := do
  match ← readDigits cs with
  | ('0' :: _ :: _, _) => .error .malformed
  | (ds, rest) => .ok (ds, rest)

def readFraction (cs : List Char) : Except Fault (Taken (Option (List Char))) :=
  match cs with
  | '.' :: rest => do
    let (ds, rest) ← readDigits rest
    .ok (some ds, rest)
  | _ => .ok (none, cs)

def readSign (cs : List Char) : Bool × List Char :=
  match cs with
  | '-' :: rest => (true, rest)
  | '+' :: rest => (false, rest)
  | _ => (false, cs)

def readExponent (cs : List Char) : Except Fault (Taken (Option Int)) :=
  match cs with
  | [] => .ok (none, cs)
  | e :: rest =>
    if e = 'e' ∨ e = 'E' then do
      let (negative, rest) := readSign rest
      let (ds, rest) ← readDigits rest
      let n := (natural? 10 ds).getD 0
      .ok (some (if negative then -(n : Int) else n), rest)
    else .ok (none, cs)

def readLiteral (cs : List Char) : Except Fault (Taken Literal) := do
  let (negative, cs) := match cs with
    | '-' :: rest => (true, rest)
    | _ => (false, cs)
  let (whole, cs) ← readWhole cs
  let (fraction, cs) ← readFraction cs
  let (exponent, cs) ← readExponent cs
  .ok (⟨negative, whole, fraction, exponent⟩, cs)

/-- What follows a word that has to stand here. -/
def dropWord : List Char → List Char → Except Fault (List Char)
  | [], cs => .ok cs
  | _, [] => .error .endsEarly
  | w :: word, c :: cs => if w = c then dropWord word cs else .error .malformed

mutual

def readValue (fuel depth : Nat) (cs : List Char) : Except Fault (Taken Value) :=
  match fuel with
  | 0 => .error .endsEarly
  | fuel + 1 =>
    match skipBlank cs with
    | '"' :: rest => do
      let (s, rest) ← readString rest
      .ok (s.elim .unreadable .string, rest)
    | '[' :: rest => do
      let (items, rest) ← readItems fuel (depth + 1) true rest
      .ok (if depthLimit ≤ depth then .unreadable else .array items, rest)
    | '\x7b' :: rest => do
      let (fields, rest) ← readFields fuel (depth + 1) true rest
      .ok (if depthLimit ≤ depth then .unreadable else fields.elim .unreadable .object, rest)
    | 't' :: rest => (dropWord "rue".toList rest).map (.bool true, ·)
    | 'f' :: rest => (dropWord "alse".toList rest).map (.bool false, ·)
    | 'n' :: rest => (dropWord "ull".toList rest).map (.null, ·)
    | cs => do
      let (lit, rest) ← readLiteral cs
      .ok (lit.value?.elim .unreadable .number, rest)

def readItems (fuel depth : Nat) (first : Bool) (cs : List Char) : Except Fault (Taken (List Value)) :=
  match fuel with
  | 0 => .error .endsEarly
  | fuel + 1 =>
    match skipBlank cs, first with
    | [], _ => .error .endsEarly
    | ']' :: rest, _ => .ok ([], rest)
    | ',' :: rest, false =>
      match skipBlank rest with
      | ']' :: _ => .error .malformed
      | rest => readItem fuel depth rest
    | rest, true => readItem fuel depth rest
    | _, false => .error .malformed

def readItem (fuel depth : Nat) (cs : List Char) : Except Fault (Taken (List Value)) :=
  match fuel with
  | 0 => .error .endsEarly
  | fuel + 1 => do
    let (v, rest) ← readValue fuel depth cs
    let (more, rest) ← readItems fuel depth false rest
    .ok (v :: more, rest)

/-- The fields of an object up to its closing brace; `none` inside when a key has no text. -/
def readFields (fuel depth : Nat) (first : Bool) (cs : List Char) :
    Except Fault (Taken (Option (List (Key × Value)))) :=
  match fuel with
  | 0 => .error .endsEarly
  | fuel + 1 =>
    match skipBlank cs, first with
    | [], _ => .error .endsEarly
    | '\x7d' :: rest, _ => .ok (some [], rest)
    | ',' :: rest, false => readField fuel depth (skipBlank rest)
    | rest, true => readField fuel depth rest
    | _, false => .error .malformed

def readField (fuel depth : Nat) (cs : List Char) : Except Fault (Taken (Option (List (Key × Value)))) :=
  match fuel with
  | 0 => .error .endsEarly
  | fuel + 1 =>
    match cs with
    | [] => .error .endsEarly
    | '"' :: rest => do
      let (key, rest) ← readString rest
      match skipBlank rest with
      | [] => .error .endsEarly
      | ':' :: rest =>
        let (v, rest) ← readValue fuel depth rest
        let (more, rest) ← readFields fuel depth false rest
        .ok (do return (.name (← key), v) :: (← more), rest)
      | _ => .error .malformed
    | _ => .error .malformed

end

def read (s : String) : Except Fault Value := do
  let cs := s.toList
  let (v, rest) ← readValue (3 * cs.length + 3) 0 cs
  if (skipBlank rest).isEmpty then .ok v else .error .malformed

def parse? (s : String) : Option Value := (read s).toOption

end SelfHealing.Json
