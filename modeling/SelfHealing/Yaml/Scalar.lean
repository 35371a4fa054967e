import SelfHealing.Yaml.Cursor
import SelfHealing.Yaml.Token

/-!
Scalars: plain and quoted ones, whose lines are folded, and block scalars.
-/

namespace SelfHealing.Yaml

open Text

/-- What stands between two words of a plain or quoted scalar: blanks on one line, or line breaks with the
blanks around them left out. -/
structure Gap where
  blanks : List Char
  breaks : List Char
  deriving Repr

namespace Gap

def none : Gap := ⟨[], []⟩

def isBroken (g : Gap) : Bool := !g.breaks.isEmpty

/-- A single newline is a space, and of several the first is left out. -/
def fold : List Char → List Char
  | ['\n'] => [' ']
  | '\n' :: more => more
  | breaks => breaks

def text (g : Gap) : List Char :=
  if g.isBroken then fold g.breaks else g.blanks

end Gap

/-- The blanks and line breaks up to the next word. Once a line is broken no tab may stand before column
`indent`. With `broken`, the line was broken before. -/
def takeGap? (fuel : Nat) (indent : Nat) (broken : Bool) (c : Cursor) : Option (Gap × Cursor) :=
  match fuel with
  | 0 => some (.none, c)
  | fuel + 1 =>
    match c.rest with
    | [] => some (.none, c)
    | b :: _ =>
      if isBlank b then
        if broken && c.column < indent && b = '\t' then none
        else do
          let (g, after) ← takeGap? fuel indent broken (c.advance 1)
          some (if broken || g.isBroken then ⟨[], g.breaks⟩ else ⟨b :: g.blanks, []⟩, after)
      else if isBreak b then do
        let (text, next) := c.takeBreak
        let (g, after) ← takeGap? fuel indent true next
        some (⟨[], text ++ g.breaks⟩, after)
      else some (.none, c)

def isFlowIndicator (c : Char) : Bool :=
  c = ',' || c = '[' || c = ']' || c = '\x7b' || c = '\x7d'

/-- The length of a plain word; in a flow collection it may not have a colon before an indicator. -/
def plainLength? (inFlow : Bool) : List Char → Option Nat
  | [] => some 0
  | c :: rest =>
    if isSpaced c then some 0
    else if inFlow && c = ':' && rest.head?.any (fun d ↦ isFlowIndicator d || d = '?') then none
    else if c = ':' && rest.head?.all isSpaced then some 0
    else if inFlow && isFlowIndicator c then some 0
    else (plainLength? inFlow rest).map (· + 1)

/-- A scalar's text and where it ends; `broken` when line breaks follow its last word. -/
structure Scanned where
  text : List Char
  broken : Bool
  after : Cursor

/-- The words of a plain scalar from a place that `gap` leads to. -/
def plainWords? (fuel : Nat) (inFlow : Bool) (indent : Nat) (gap : Gap) (c : Cursor) :
    Option Scanned :=
  let stop := some ⟨[], gap.isBroken, c⟩
  match fuel with
  | 0 => stop
  | fuel + 1 =>
    if c.atDocumentMarker || c.peek? 0 = some '#' then stop
    else do
      let n ← plainLength? inFlow c.rest
      if n = 0 then stop
      else
        let word := gap.text ++ c.rest.take n
        let next := c.advance n
        let (gap, after) ← takeGap? next.rest.length indent false next
        if !inFlow && after.column < indent then some ⟨word, gap.isBroken, after⟩
        else
          let more ← plainWords? fuel inFlow indent gap after
          some { more with text := word ++ more.text }

/-- A plain scalar; the lines after its first one begin at column `indent` or further in. -/
def scanPlain? (inFlow : Bool) (indent : Nat) (c : Cursor) : Option Scanned :=
  plainWords? (c.rest.length + 1) inFlow indent .none c

inductive WordEnd
  | closed
  | spaced
  | escapedBreak
  deriving DecidableEq

/-- A word in single quotes, in which a doubled quote is a quote. -/
def singleWord : List Char → List Char × List Char
  | '\'' :: '\'' :: rest =>
    let (word, after) := singleWord rest
    ('\'' :: word, after)
  | c :: rest =>
    if c = '\'' || isSpaced c then ([], c :: rest)
    else
      let (word, after) := singleWord rest
      (c :: word, after)
  | [] => ([], [])

inductive Escape
  | char (c : Char)
  | code (width : Nat)

def escape? : Char → Option Escape
  | '0' => some (.char '\x00')
  | 'a' => some (.char '\x07')
  | 'b' => some (.char '\x08')
  | 't' | '\t' => some (.char '\t')
  | 'n' => some (.char '\n')
  | 'v' => some (.char '\x0b')
  | 'f' => some (.char '\x0c')
  | 'r' => some (.char '\r')
  | 'e' => some (.char '\x1b')
  | ' ' => some (.char ' ')
  | '"' => some (.char '"')
  | '/' => some (.char '/')
  | '\\' => some (.char '\\')
  | 'N' => some (.char '\u0085')
  | '_' => some (.char '\u00a0')
  | 'L' => some (.char '\u2028')
  | 'P' => some (.char '\u2029')
  | 'x' => some (.code 2)
  | 'u' => some (.code 4)
  | 'U' => some (.code 8)
  | _ => none

def charOfCode? (n : Nat) : Option Char :=
  if n.isValidChar then some (Char.ofNat n) else none

/-- A word in double quotes, up to a blank, a break, the closing quote or an escaped break. -/
def doubleWord? (fuel : Nat) (cs : List Char) : Option (List Char × WordEnd × List Char) :=
  match fuel with
  | 0 => none
  | fuel + 1 =>
    match cs with
    | [] => some ([], .spaced, [])
    | '"' :: _ => some ([], .closed, cs)
    | '\\' :: e :: rest =>
      if isBreak e then some ([], .escapedBreak, e :: rest)
      else do
        let (c, rest) ← match ← escape? e with
          | .char c => some (c, rest)
          | .code width => do
            if rest.length < width then none
            else some (← charOfCode? (← natural? 16 (rest.take width)), rest.drop width)
        let (word, ending, after) ← doubleWord? fuel rest
        some (c :: word, ending, after)
    | ['\\'] => none
    | c :: rest =>
      if isSpaced c then some ([], .spaced, cs)
      else do
        let (word, ending, after) ← doubleWord? fuel rest
        some (c :: word, ending, after)

def quotedWord? (double : Bool) (cs : List Char) : Option (List Char × WordEnd × List Char) :=
  if double then doubleWord? (cs.length + 1) cs
  else
    let (word, after) := singleWord cs
    some (word, if after.head? = some '\'' then .closed else .spaced, after)

/-- The words of a quoted scalar whose opening quote has been read. -/
def quotedWords? (fuel : Nat) (double : Bool) (c : Cursor) : Option Scanned :=
  match fuel with
  | 0 => none
  | fuel + 1 =>
    if c.atDocumentMarker || c.atEnd then none
    else do
      let (word, ending, rest) ← quotedWord? double c.rest
      let next := c.moveTo rest
      if ending = .closed then some ⟨word, false, next.advance 1⟩
      else
        let escaped := ending = .escapedBreak
        let next := if escaped then next.skipBreak else next
        let (gap, after) ← takeGap? next.rest.length 0 escaped next
        let more ← quotedWords? fuel double after
        let between := if escaped then gap.breaks else gap.text
        some { more with text := word ++ between ++ more.text }

def scanQuoted? (double : Bool) (c : Cursor) : Option Scanned :=
  quotedWords? (c.rest.length + 1) double (c.advance 1)

/-- What becomes of the line breaks at the end of a block scalar. -/
inductive Chomping
  | strip
  | clip
  | keep
  deriving DecidableEq

structure BlockHeader where
  chomping : Chomping
  increment : Option Nat

def chompingSign? : Option Char → Option Chomping
  | some '+' => some .keep
  | some '-' => some .strip
  | _ => none

/-- An indentation given as a digit, which may not be zero. -/
def increment? (c : Cursor) : Option (Option Nat × Cursor) :=
  match c.peek? 0 with
  | some d =>
    if d = '0' then none
    else if isDecimalDigit d then some (some (d.toNat - '0'.toNat), c.advance 1)
    else some (none, c)
  | none => some (none, c)

/-- The two indicators after `|` or `>`, in either order. -/
def blockHeader? (c : Cursor) : Option (BlockHeader × Cursor) :=
  match chompingSign? (c.peek? 0) with
  | some chomping => do
    let (increment, c) ← increment? (c.advance 1)
    some (⟨chomping, increment⟩, c)
  | none => do
    let (increment, c) ← increment? c
    match increment, chompingSign? (c.peek? 0) with
    | some n, some chomping => some (⟨chomping, some n⟩, c.advance 1)
    | increment, _ => some (⟨.clip, increment⟩, c)

/-- The line breaks before the next line of a block scalar, and the column it was indented to. Without a
known indentation all spaces count as indentation. -/
def blockBreaks? (fuel : Nat) (indent : Option Nat) (deepest : Nat) (c : Cursor) :
    Option (List Char × Nat × Cursor) :=
  match fuel with
  | 0 => some ([], deepest, c)
  | fuel + 1 =>
    let width := (c.rest.takeWhile (· = ' ')).length
    let c := c.advance (match indent with
      | none => width
      | some n => min width (n - c.column))
    let deepest := max deepest c.column
    let inside := indent.any (· ≤ c.column)
    match c.rest with
    | [] => some ([], deepest, c)
    | b :: _ =>
      if !inside && b = '\t' then none
      else if isBreak b then do
        let (text, next) := c.takeBreak
        let (more, deepest, after) ← blockBreaks? fuel indent deepest next
        some (text ++ more, deepest, after)
      else some ([], deepest, c)

/-- The text between two lines of a block scalar: the break that ended the first, and the empty lines. In a folded
scalar a newline between two lines that begin with no blank is a space, or nothing before empty lines. -/
def joinLines (folded : Bool) (ending empty : List Char) : List Char :=
  if folded && ending.head? = some '\n' then if empty.isEmpty then [' '] else empty
  else ending ++ empty

def chomp (chomping : Chomping) (ending empty : List Char) : List Char :=
  match chomping with
  | .strip => []
  | .clip => ending
  | .keep => ending ++ empty

/-- The lines of a block scalar. `ending` is the break of the line before, `empty` the empty lines since then,
and `blank` tells whether the line before began with a blank. -/
def blockLines? (fuel : Nat) (folded : Bool) (chomping : Chomping) (indent : Nat)
    (ending empty : List Char) (blank : Bool) (c : Cursor) : Option Scanned :=
  match fuel with
  | 0 => none
  | fuel + 1 =>
    if c.column ≠ indent || c.atEnd then some ⟨chomp chomping ending empty, false, c⟩
    else do
      let blankNow := (c.peek? 0).any isBlank
      let between := joinLines (folded && !blank && !blankNow) ending empty
      let line := c.rest.takeWhile (!isBreak ·)
      let (ending, next) := (c.advance line.length).takeBreak
      let (empty, _, after) ← blockBreaks? (next.rest.length + 1) (some indent) 0 next
      let more ← blockLines? fuel folded chomping indent ending empty blankNow after
      some { more with text := between ++ line ++ more.text }

/-- A block scalar inside a block that is indented to column `parent`, which is negative at the top. -/
def scanBlock? (folded : Bool) (parent : Int) (c : Cursor) : Option Scanned := do
  let (header, c) ← blockHeader? (c.advance 1)
  let c ← c.skipLineEnd?
  let base := parent.toNat
  let known := header.increment.map (base + ·)
  let (empty, deepest, c) ← blockBreaks? (c.rest.length + 1) known 0 c
  let indent := known.getD (max deepest (max (parent + 1).toNat 1))
  blockLines? (c.rest.length + 2) folded header.chomping indent [] empty false c

end SelfHealing.Yaml
