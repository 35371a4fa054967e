import SelfHealing.Text.Numeral

/-!
A place in a YAML text, and the classes of characters that its syntax tells apart.
-/

namespace SelfHealing.Yaml

open Text

def allowed (c : Char) : Bool :=
  c.val == 0x09 || c.val == 0x0a || c.val == 0x0d || (0x20 ≤ c.val && c.val ≤ 0x7e) ||
    c.val == 0x85 || (0xa0 ≤ c.val && c.val ≤ 0xfffd) || 0x10000 ≤ c.val

def isBlank (c : Char) : Bool := c = ' ' || c = '\t'

def isBreak (c : Char) : Bool :=
  c = '\n' || c = '\r' || c.val == 0x85 || c.val == 0x2028 || c.val == 0x2029

def isSpaced (c : Char) : Bool := isBlank c || isBreak c

/-- The characters of names: of anchors, tag handles and directives. -/
def isNameChar (c : Char) : Bool :=
  c.isAlphanum || c = '_' || c = '-'

/-- The characters of the text of a tag; the last three only where it cannot run into a flow collection. -/
def isTagChar (delimited : Bool) (c : Char) : Bool :=
  isNameChar c || c ∈ [';', '/', '?', ':', '@', '&', '=', '+', '$', '.', '%', '!', '~', '*', '\'', '(', ')'] ||
    (delimited && c ∈ [',', '[', ']'])

/-- What is left of a text, with the count of characters and lines before it and the column. -/
structure Cursor where
  rest : List Char
  index : Nat
  line : Nat
  column : Nat
  deriving Repr

namespace Cursor

def ofText (cs : List Char) : Cursor := ⟨cs, 0, 0, 0⟩

def advance (c : Cursor) (n : Nat) : Cursor :=
  ⟨c.rest.drop n, c.index + n, c.line, c.column + n⟩

/-- Past all of the line that is before `rest`. -/
def moveTo (c : Cursor) (rest : List Char) : Cursor :=
  c.advance (c.rest.length - rest.length)

def skipWhile (c : Cursor) (p : Char → Bool) : Cursor :=
  c.advance (c.rest.takeWhile p).length

def atEnd (c : Cursor) : Bool := c.rest.isEmpty

def peek? (c : Cursor) (n : Nat) : Option Char := c.rest[n]?

/-- The text has ended, or goes on with a blank or a line break, `n` characters further on. -/
def spacedAt (c : Cursor) (n : Nat) : Bool := (c.peek? n).all isSpaced

def startsWith (c : Cursor) (s : String) : Bool := s.toList.isPrefixOf c.rest

/-- A marker of three characters that begins or ends a document. -/
def atMarker (c : Cursor) (marker : String) : Bool :=
  c.column = 0 && c.startsWith marker && c.spacedAt 3

def atDocumentMarker (c : Cursor) : Bool :=
  c.atMarker "---" || c.atMarker "..."

/-- Over a line break, which counts as a newline unless it is a separator of lines or paragraphs. -/
def takeBreak (c : Cursor) : List Char × Cursor :=
  match c.rest with
  | '\r' :: '\n' :: rest => (['\n'], ⟨rest, c.index + 2, c.line + 1, 0⟩)
  | b :: rest =>
    if isBreak b then
      ([if b.val == 0x2028 || b.val == 0x2029 then b else '\n'], ⟨rest, c.index + 1, c.line + 1, 0⟩)
    else ([], c)
  | [] => ([], c)

def skipBreak (c : Cursor) : Cursor := c.takeBreak.2

/-- To the end of the line, over blanks and a comment; `none` when something else stands there. -/
def skipLineEnd? (c : Cursor) : Option Cursor :=
  let c := c.skipWhile isBlank
  let c := if c.peek? 0 = some '#' then c.skipWhile (!isBreak ·) else c
  if (c.peek? 0).all isBreak then some c.skipBreak else none

end Cursor

end SelfHealing.Yaml
