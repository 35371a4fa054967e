import SelfHealing.Text.Utf8
import SelfHealing.Yaml.Cursor
import SelfHealing.Yaml.Token

/-!
Anchors, aliases, tags and directives.
-/

namespace SelfHealing.Yaml

open Text

def takeName (c : Cursor) : String × Cursor :=
  let name := c.rest.takeWhile isNameChar
  (String.ofList name, c.advance name.length)

def scanName? (c : Cursor) : Option (String × Cursor) :=
  let (name, after) := takeName (c.advance 1)
  let ended := after.spacedAt 0 || (after.peek? 0).any (· ∈ ['?', ':', ',', ']', '\x7d', '%', '@', '`'])
  if name.isEmpty || !ended then none else some (name, after)

/-- How many octets a character has that begins with an octet. -/
def encodedWidth? (b : Nat) : Option Nat :=
  if b < 0x80 then some 1
  else if b / 0x20 = 6 then some 2
  else if b / 0x10 = 14 then some 3
  else if b / 8 = 30 then some 4
  else none

def escapedOctet? : List Char → Option (Nat × List Char)
  | '%' :: a :: b :: rest => do some (← natural? 16 [a, b], rest)
  | _ => none

def moreOctets? : Nat → List Char → Option (Octets × List Char)
  | 0, cs => some ([], cs)
  | n + 1, cs => do
    let (b, rest) ← escapedOctet? cs
    if b / 0x40 ≠ 2 then none
    else
      let (more, rest) ← moreOctets? n rest
      some (b.toUInt8 :: more, rest)

def escapedChar? (cs : List Char) : Option (List Char × List Char) := do
  let (b, rest) ← escapedOctet? cs
  let (more, rest) ← moreOctets? ((← encodedWidth? b) - 1) rest
  some (decodeFrom none (b.toUInt8 :: more), rest)

def tagText? (fuel : Nat) (delimited : Bool) (cs : List Char) : Option (List Char × List Char) :=
  match fuel with
  | 0 => some ([], cs)
  | fuel + 1 =>
    match cs with
    | [] => some ([], [])
    | c :: rest =>
      if !isTagChar delimited c then some ([], cs)
      else do
        let (text, rest) ← if c = '%' then escapedChar? cs else some ([c], rest)
        let (more, rest) ← tagText? fuel delimited rest
        some (text ++ more, rest)

def scanTagText? (delimited : Bool) (c : Cursor) : Option (List Char × Cursor) := do
  let (text, rest) ← tagText? (c.rest.length + 1) delimited c.rest
  some (text, c.moveTo rest)

/-- A tag's handle: `!`, `!!` or a name between exclamation marks. Without the second mark the name is not part
of a handle, and is given beside it. -/
structure HandleRun where
  closed : Bool
  name : List Char
  after : Cursor

def scanHandle? (c : Cursor) : Option HandleRun :=
  if c.peek? 0 ≠ some '!' then none
  else
    let name := (c.advance 1).rest.takeWhile isNameChar
    let after := c.advance (1 + name.length)
    some <|
      if after.peek? 0 = some '!' then ⟨true, name, after.advance 1⟩ else ⟨false, name, after⟩

def HandleRun.handle (r : HandleRun) : String :=
  String.ofList ('!' :: (r.name ++ ['!']))

/-- A tag ends at a blank, a line break or, in a flow collection, a comma. -/
def tagEnded (inFlow : Bool) (c : Cursor) : Bool :=
  c.spacedAt 0 || (inFlow && c.peek? 0 = some ',')

def scanTag? (inFlow : Bool) (c : Cursor) : Option (Token × Cursor) := do
  let (token, after) ←
    if c.peek? 1 = some '<' then do
      let (text, after) ← scanTagText? true (c.advance 2)
      if text.isEmpty || after.peek? 0 ≠ some '>' then none
      else some (Token.tag "" (String.ofList text), after.advance 1)
    else do
      let run ← scanHandle? c
      let (text, after) ← scanTagText? false run.after
      if run.closed then
        if text.isEmpty then none else some (Token.tag run.handle (String.ofList text), after)
      else
        let suffix := run.name ++ text
        some (if suffix.isEmpty then Token.tag "" "!" else Token.tag "!" (String.ofList suffix), after)
  if tagEnded inFlow after then some (token, after) else none

/-- A number of a version has at most nine digits. -/
def scanVersionNumber? (c : Cursor) : Option (Nat × Cursor) := do
  let ds := c.rest.takeWhile isDecimalDigit
  if 9 < ds.length then none else some (← natural? 10 ds, c.advance ds.length)

def scanVersion? (c : Cursor) : Option (Token × Cursor) := do
  let (major, c) ← scanVersionNumber? (c.skipWhile isBlank)
  if c.peek? 0 ≠ some '.' then none
  else
    let (minor, c) ← scanVersionNumber? (c.advance 1)
    some (.version major minor, c)

def scanTagDirective? (c : Cursor) : Option (Token × Cursor) := do
  let run ← scanHandle? (c.skipWhile isBlank)
  if (!run.closed && !run.name.isEmpty) || !(run.after.peek? 0).any isBlank then none
  else
    let (lead, after) ← scanTagText? true (run.after.skipWhile isBlank)
    if lead.isEmpty || !after.spacedAt 0 then none
    else
      some (.tagHandle (if run.closed then run.handle else "!") (String.ofList lead), after)

def scanDirective? (c : Cursor) : Option (Token × Cursor) := do
  let (name, after) := takeName (c.advance 1)
  if name.isEmpty || !after.spacedAt 0 then none
  else
    let (token, after) ← match name with
      | "YAML" => scanVersion? after
      | "TAG" => scanTagDirective? after
      | _ => none
    some (token, ← after.skipLineEnd?)

end SelfHealing.Yaml
