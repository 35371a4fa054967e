import SelfHealing.Shell.State

/-!
Patterns of text. A character that was quoted stands for itself.
-/

namespace SelfHealing.Shell

structure Glyph where
  char : Char
  quoted : Bool
  deriving DecidableEq, Repr

inductive Range
  | between (low high : Char)
  | named (name : String)
  deriving DecidableEq, Repr

def isPunctuation (c : Char) : Bool := '!' ≤ c && c ≤ '~' && !c.isAlphanum

def classHolds (name : String) (c : Char) : Bool :=
  match name with
  | "alpha" => c.isAlpha
  | "digit" => c.isDigit
  | "alnum" => c.isAlphanum
  | "upper" => c.isUpper
  | "lower" => c.isLower
  | "space" => c ∈ [' ', '\t', '\n', '\r', '\x0b', '\x0c']
  | "blank" => c ∈ [' ', '\t']
  | "punct" => isPunctuation c
  | "xdigit" => (Text.digitValue? 16 c).isSome
  | "print" => ' ' ≤ c && c ≤ '~'
  | _ => false

def Range.holds (c : Char) : Range → Bool
  | between low high => low ≤ c && c ≤ high
  | named name => classHolds name c

inductive PatternPart
  | exactly (c : Char)
  | anyChar
  | anyText
  | oneOf (negated : Bool) (ranges : List Range)
  deriving DecidableEq, Repr

abbrev Pattern := List PatternPart

namespace Pattern

def special (g : Glyph) (c : Char) : Bool := g.char = c && !g.quoted

/-- The ranges of a bracket up to its end, and what follows. A bracket at once after the first is a member. -/
def ranges? (first : Bool) : List Glyph → Option (List Range × List Glyph)
  | [] => none
  | ⟨'[', _⟩ :: ⟨':', _⟩ :: rest =>
    let name := (rest.takeWhile (·.char ≠ ':')).map (·.char)
    match h : rest.drop name.length with
    | ⟨':', _⟩ :: ⟨']', _⟩ :: after =>
      have : after.length < rest.length := by
        have := congrArg List.length h
        simp at this
        omega
      (ranges? false after).map fun (rs, end_) ↦ (.named (String.ofList name) :: rs, end_)
    | _ => none
  | ⟨a, _⟩ :: ⟨'-', false⟩ :: ⟨b, quoted⟩ :: rest =>
    if a = ']' && !first then some ([], ⟨'-', false⟩ :: ⟨b, quoted⟩ :: rest)
    else if b = ']' && !quoted then some ([.between a a, .between '-' '-'], rest)
    else (ranges? false rest).map fun (rs, end_) ↦ (.between a b :: rs, end_)
  | g :: rest =>
    if special g ']' && !first then some ([], rest)
    else (ranges? false rest).map fun (rs, end_) ↦ (.between g.char g.char :: rs, end_)
termination_by gs => gs.length

def compile (fuel : Nat) (gs : List Glyph) : Pattern :=
  match fuel, gs with
  | 0, _ => []
  | _, [] => []
  | fuel + 1, g :: rest =>
    if special g '*' then .anyText :: compile fuel rest
    else if special g '?' then .anyChar :: compile fuel rest
    else if special g '[' then
      let (negated, body) := match rest with
        | ⟨'!', false⟩ :: body => (true, body)
        | _ => (false, rest)
      match ranges? true body with
      | some (rs, after) => .oneOf negated rs :: compile fuel after
      | none => .exactly '[' :: compile fuel rest
    else .exactly g.char :: compile fuel rest

def ofGlyphs (gs : List Glyph) : Pattern := compile (gs.length + 1) gs

def accepts : Pattern → Chars → Bool
  | [], cs => cs.isEmpty
  | .anyText :: ps, [] => accepts ps []
  | .anyText :: ps, c :: cs => accepts ps (c :: cs) || accepts (.anyText :: ps) cs
  | .exactly d :: ps, c :: cs => c = d && accepts ps cs
  | .anyChar :: ps, _ :: cs => accepts ps cs
  | .oneOf negated rs :: ps, c :: cs => (rs.any (·.holds c) != negated) && accepts ps cs
  | _ :: _, [] => false
termination_by ps cs => ps.length + cs.length

def prefixLengths (p : Pattern) (cs : Chars) : List Nat :=
  (List.range (cs.length + 1)).filter fun n ↦ p.accepts (cs.take n)

def suffixLengths (p : Pattern) (cs : Chars) : List Nat :=
  (List.range (cs.length + 1)).filter fun n ↦ p.accepts (cs.drop (cs.length - n))

end Pattern

end SelfHealing.Shell
