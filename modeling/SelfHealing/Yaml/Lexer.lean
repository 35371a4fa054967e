import SelfHealing.Yaml.Property
import SelfHealing.Yaml.Scalar

/-!
Tokens from text. The structure of blocks is in the columns: a deeper column opens a block, a shallower one closes it.
A key needs no sign of its own, so the place of everything that may turn out to be a key is kept until the colon.
-/

namespace SelfHealing.Yaml

/-- Something that is a key if a colon follows on its line. A required one cannot be anything else. -/
structure KeyCandidate where
  required : Bool
  position : Nat
  index : Nat
  line : Nat
  column : Nat
  deriving Repr

/-- A key is on one line and not much longer than a thousand characters. -/
def KeyCandidate.isStale (k : KeyCandidate) (c : Cursor) : Bool :=
  k.line < c.line || k.index + 1024 < c.index

/-- `candidates` has one place for each open flow collection and one for the block around them, innermost first. -/
structure Lexer where
  cursor : Cursor
  tokens : Array Token
  indent : Int
  outer : List Int
  candidates : List (Option KeyCandidate)
  keyAllowed : Bool

namespace Lexer

def ofText (cs : List Char) : Lexer := ⟨.ofText cs, #[], -1, [], [none], true⟩

def inFlow (l : Lexer) : Bool := 1 < l.candidates.length

def push (l : Lexer) (t : Token) : Lexer := { l with tokens := l.tokens.push t }

def insertAt (l : Lexer) (position : Nat) (t : Token) : Lexer :=
  { l with tokens :=
      l.tokens.extract 0 position ++ #[t] ++ l.tokens.extract position l.tokens.size }

def column (l : Lexer) : Nat := l.cursor.column

/-- Over blanks, comments and line breaks. A tab is a blank where no key can begin. -/
def skipToToken (fuel : Nat) (l : Lexer) : Lexer :=
  match fuel with
  | 0 => l
  | fuel + 1 =>
    let tabs := l.inFlow || !l.keyAllowed
    let c := if l.cursor.index = 0 && l.cursor.peek? 0 = some '\ufeff' then l.cursor.advance 1
      else l.cursor
    let c := c.skipWhile fun b ↦ b = ' ' || (tabs && b = '\t')
    let c := if c.peek? 0 = some '#' then c.skipWhile (!isBreak ·) else c
    if (c.peek? 0).any isBreak then
      skipToToken fuel { l with cursor := c.skipBreak, keyAllowed := l.keyAllowed || !l.inFlow }
    else { l with cursor := c }

/-- Gives up the candidates that the place has left behind; a required one is then missing its colon. -/
def dropStale? (l : Lexer) : Option Lexer := do
  let stale := fun (k : KeyCandidate) ↦ k.isStale l.cursor
  if l.candidates.any fun k ↦ k.any fun k ↦ k.required && stale k then none
  else some { l with candidates := l.candidates.map (·.filter (!stale ·)) }

def dropCandidate? (l : Lexer) : Option Lexer :=
  match l.candidates with
  | some k :: outer => if k.required then none else some { l with candidates := none :: outer }
  | _ => some l

/-- The token that comes next may be a key. -/
def saveCandidate? (l : Lexer) : Option Lexer :=
  if !l.keyAllowed then some l
  else do
    let c := l.cursor
    let candidate : KeyCandidate :=
      ⟨!l.inFlow && l.indent = c.column, l.tokens.size, c.index, c.line, c.column⟩
    let l ← l.dropCandidate?
    some { l with candidates := some candidate :: l.candidates.tail }

/-- Closes the blocks that are deeper than a column. -/
def unrollAll (column : Int) (indent : Int) (tokens : Array Token) :
    List Int → Int × List Int × Array Token
  | [] => (indent, [], tokens)
  | out :: outer =>
    if column < indent then unrollAll column out (tokens.push .blockEnd) outer
    else (indent, out :: outer, tokens)

def unroll (l : Lexer) (column : Int) : Lexer :=
  if l.inFlow then l
  else
    let (indent, outer, tokens) := unrollAll column l.indent l.tokens l.outer
    { l with indent, outer, tokens }

/-- Opens a block at a column unless one is open there, before a token that may have been read already. -/
def roll (l : Lexer) (column position : Nat) (opening : Token) : Lexer :=
  if !l.inFlow && l.indent < column then
    { l.insertAt position opening with indent := column, outer := l.indent :: l.outer }
  else l

def openFlow? (l : Lexer) (t : Token) : Option Lexer := do
  let l ← l.saveCandidate?
  some { l.push t with
    candidates := none :: l.candidates, keyAllowed := true, cursor := l.cursor.advance 1 }

def closeFlow? (l : Lexer) (t : Token) : Option Lexer := do
  let l ← l.dropCandidate?
  let candidates := if l.inFlow then l.candidates.tail else l.candidates
  some { l.push t with candidates, keyAllowed := false, cursor := l.cursor.advance 1 }

def flowEntry? (l : Lexer) : Option Lexer := do
  let l ← l.dropCandidate?
  some { l.push .flowEntry with keyAllowed := true, cursor := l.cursor.advance 1 }

def blockEntry? (l : Lexer) : Option Lexer := do
  if !l.inFlow && !l.keyAllowed then none
  else
    let l ← (l.roll l.column l.tokens.size .sequenceStart).dropCandidate?
    some { l.push .entry with keyAllowed := true, cursor := l.cursor.advance 1 }

def key? (l : Lexer) : Option Lexer := do
  if !l.inFlow && !l.keyAllowed then none
  else
    let l ← (l.roll l.column l.tokens.size .mappingStart).dropCandidate?
    some { l.push .key with keyAllowed := !l.inFlow, cursor := l.cursor.advance 1 }

/-- A colon makes a key of the candidate; without one its key is empty. -/
def value? (l : Lexer) : Option Lexer :=
  match l.candidates with
  | some k :: outer =>
    let l := (l.insertAt k.position .key).roll k.column k.position .mappingStart
    some { l.push .value with
      candidates := none :: outer, keyAllowed := false, cursor := l.cursor.advance 1 }
  | _ =>
    if !l.inFlow && !l.keyAllowed then none
    else
      let l := l.roll l.column l.tokens.size .mappingStart
      some { l.push .value with keyAllowed := !l.inFlow, cursor := l.cursor.advance 1 }

def keyLike? (l : Lexer) (scan : Cursor → Option (Token × Cursor)) : Option Lexer := do
  let l ← l.saveCandidate?
  let (t, after) ← scan l.cursor
  some { l.push t with keyAllowed := false, cursor := after }

def quoted? (l : Lexer) (double : Bool) : Option Lexer :=
  l.keyLike? fun c ↦ do
    let s ← scanQuoted? double c
    some (.scalar (String.ofList s.text) (if double then .doubleQuoted else .singleQuoted), s.after)

def plain? (l : Lexer) : Option Lexer := do
  let l ← l.saveCandidate?
  let s ← scanPlain? l.inFlow (l.indent + 1).toNat l.cursor
  some { l.push (.scalar (String.ofList s.text) .plain) with keyAllowed := s.broken, cursor := s.after }

def block? (l : Lexer) (folded : Bool) : Option Lexer := do
  let l ← l.dropCandidate?
  let s ← scanBlock? folded l.indent l.cursor
  some { l.push (.scalar (String.ofList s.text) (if folded then .folded else .literal)) with
    keyAllowed := true, cursor := s.after }

def marker? (l : Lexer) (t : Token) : Option Lexer := do
  let l ← (l.unroll (-1)).dropCandidate?
  some { l.push t with keyAllowed := false, cursor := l.cursor.advance 3 }

def directive? (l : Lexer) : Option Lexer := do
  let l ← (l.unroll (-1)).dropCandidate?
  let (t, after) ← scanDirective? l.cursor
  some { l.push t with keyAllowed := false, cursor := after }

def finish? (l : Lexer) : Option Lexer :=
  (l.unroll (-1)).dropCandidate?

def isIndicator (c : Char) : Bool :=
  c ∈ ['-', '?', ':', ',', '[', ']', '\x7b', '\x7d', '#', '&', '*', '!', '|', '>', '\'', '"', '%', '@', '`']

def startsPlain (l : Lexer) (c : Char) : Bool :=
  !isIndicator c || (c = '-' && !(l.cursor.peek? 1).any isBlank) ||
    (!l.inFlow && (c = '?' || c = ':') && !l.cursor.spacedAt 1)

def token? (l : Lexer) (c : Char) : Option Lexer :=
  let spaced := l.cursor.spacedAt 1
  if l.column = 0 && c = '%' then l.directive?
  else if l.cursor.atMarker "---" then l.marker? .documentStart
  else if l.cursor.atMarker "..." then l.marker? .documentEnd
  else if c = '[' then l.openFlow? .flowSequenceStart
  else if c = '\x7b' then l.openFlow? .flowMappingStart
  else if c = ']' then l.closeFlow? .flowSequenceEnd
  else if c = '\x7d' then l.closeFlow? .flowMappingEnd
  else if c = ',' then l.flowEntry?
  else if c = '-' && spaced then l.blockEntry?
  else if c = '?' && (l.inFlow || spaced) then l.key?
  else if c = ':' && (l.inFlow || spaced) then l.value?
  else if c = '*' then l.keyLike? fun c ↦ (scanName? c).map fun (name, after) ↦ (.reference name, after)
  else if c = '&' then l.keyLike? fun c ↦ (scanName? c).map fun (name, after) ↦ (.anchor name, after)
  else if c = '!' then l.keyLike? (scanTag? l.inFlow)
  else if c = '|' && !l.inFlow then l.block? false
  else if c = '>' && !l.inFlow then l.block? true
  else if c = '\'' then l.quoted? false
  else if c = '"' then l.quoted? true
  else if l.startsPlain c then l.plain?
  else none

def run? (fuel : Nat) (l : Lexer) : Option Lexer :=
  match fuel with
  | 0 => none
  | fuel + 1 => do
    let l ← (l.skipToToken (l.cursor.rest.length + 1)).dropStale?
    let l := l.unroll l.column
    match l.cursor.peek? 0 with
    | none => l.finish?
    | some c => run? fuel (← l.token? c)

end Lexer

def tokens? (s : String) : Option (List Token) :=
  let cs := s.toList
  if cs.all allowed then (Lexer.run? (cs.length + 1) (.ofText cs)).map (·.tokens.toList) else none

end SelfHealing.Yaml
