import SelfHealing.Shell.Arithmetic
import SelfHealing.Shell.Pattern

/-!
The expansion of words: parameters, commands and arithmetic are replaced by their values, what comes from outside
quotes is split into fields, and quotes are removed.
-/

namespace SelfHealing.Shell

/-- A part of an expanded word. Characters of an unquoted value are loose and may separate fields; a quoted part
opens a field even when it is empty. -/
inductive Piece
  | fixed (g : Glyph)
  | loose (c : Char)
  | opening
  | boundary
  deriving DecidableEq, Repr

inductive Quoting
  | bare
  | double
  | document
  deriving DecidableEq, Repr

abbrev Substitution := Chars → Eval Chars

def valuePieces (q : Quoting) (value : Chars) : List Piece :=
  match q with
  | .bare => value.map .loose
  | .double | .document => value.map fun c ↦ .fixed ⟨c, true⟩

def quotedPieces (cs : Chars) : List Piece := cs.map fun c ↦ .fixed ⟨c, true⟩

def processId : Nat := 4242

def standardSeparators : Chars := [' ', '\t', '\n']

def separators : Eval Chars := return (← valueOf? "IFS").getD standardSeparators

def joinWith (separator : Chars) : List Chars → Chars
  | [] => []
  | [a] => a
  | a :: rest => a ++ separator ++ joinWith separator rest

def isSpecialParameter (c : Char) : Bool := c ∈ ['@', '*', '#', '?', '-', '$', '!'] || c.isDigit

def parameterName (cs : Chars) : Chars :=
  match cs with
  | c :: rest =>
    if Parser.isNameStart c then c :: rest.takeWhile fun d ↦ d.isAlphanum || d = '_'
    else if isSpecialParameter c then [c]
    else []
  | [] => []

def flagLetters (s : Scope) : Chars :=
  (if s.stopsOnFailure then ['e'] else []) ++ (if s.refusesUnset then ['u'] else []) ++
    (if s.traces then ['x'] else [])

def parameter? (name : Chars) : Eval (Option Chars) := do
  let s ← scope
  match name with
  | ['#'] => return some (decimal s.arguments.length)
  | ['?'] => return some (decimal s.status)
  | ['$'] => return some (decimal processId)
  | ['!'] => return (← world).jobs.head?.map fun j ↦ decimal j.process
  | ['-'] => return some (flagLetters s)
  | ['@'] => return if s.arguments.isEmpty then none else some (joinWith [' '] s.arguments)
  | ['*'] =>
    let first := (← separators).take 1
    return if s.arguments.isEmpty then none else some (joinWith first s.arguments)
  | _ =>
    match Text.natural? 10 name with
    | some 0 => return some s.name
    | some n => return s.arguments[n - 1]?
    | none => valueOf? (String.ofList name)

def requireSet (name : Chars) : Eval Chars := do
  match ← parameter? name with
  | some value => return value
  | none =>
    if (← scope).refusesUnset && !(name ∈ [['@'], ['*'], ['!']]) then
      abandon (name ++ ": parameter not set".toList)
    else return []

def argumentPieces (q : Quoting) : Eval (List Piece) := do
  let pieces := (← scope).arguments.map fun a ↦
    match q with
    | .bare => a.map Piece.loose
    | .double | .document => .opening :: quotedPieces a
  return (pieces.intersperse [.boundary]).flatten

/-- An operator of a parameter expansion, and whether an empty value counts as unset. -/
structure ParameterOp where
  op : Char
  strict : Bool
  deriving Repr

def parameterOp? : Chars → Option (ParameterOp × Chars)
  | ':' :: c :: word => if c ∈ ['-', '=', '?', '+'] then some (⟨c, true⟩, word) else none
  | '#' :: '#' :: word => some (⟨'#', true⟩, word)
  | '%' :: '%' :: word => some (⟨'%', true⟩, word)
  | c :: word => if c ∈ ['-', '=', '?', '+', '#', '%'] then some (⟨c, false⟩, word) else none
  | [] => none

def pieceChars (ps : List Piece) : Chars :=
  ps.filterMap fun p ↦
    match p with
    | .fixed g => some g.char
    | .loose c => some c
    | .boundary => some ' '
    | .opening => none

def pieceGlyphs (ps : List Piece) : List Glyph :=
  ps.filterMap fun p ↦
    match p with
    | .fixed g => some g
    | .loose c => some ⟨c, false⟩
    | .boundary => some ⟨' ', true⟩
    | .opening => none

/-- A value without the part at an end that a pattern accepts: the longest such part, or the shortest. -/
def trimmed (op : ParameterOp) (p : Pattern) (value : Chars) : Chars :=
  let lengths := if op.op = '#' then p.prefixLengths value else p.suffixLengths value
  match if op.strict then lengths.getLast? else lengths.head? with
  | some n => if op.op = '#' then value.drop n else value.take (value.length - n)
  | none => value

def unescapeBackquoted : Chars → Chars
  | '\\' :: c :: rest =>
    if c ∈ ['\\', '$', '`'] then c :: unescapeBackquoted rest
    else '\\' :: c :: unescapeBackquoted rest
  | c :: rest => c :: unescapeBackquoted rest
  | [] => []

def split (s : Split) : Eval (Chars × Chars) := do
  match s with
  | .ok parts => return parts
  | .error e => abandon ("Syntax error: ".toList ++ (SyntaxError.lexical e).message.toList)

def endsArithmetic (raw : Chars) : Bool :=
  "$((".toList.isPrefixOf raw && raw.drop (raw.length - 2) = [')', ')']

mutual

def expand (run : Substitution) (fuel : Nat) (q : Quoting) (cs : Chars) : Eval (List Piece) := do
  match fuel with
  | 0 => throw .endless
  | fuel + 1 =>
    match cs with
    | [] => return []
    | '\\' :: '\n' :: rest => expand run fuel q rest
    | '\\' :: c :: rest =>
      let removed := match q with
        | .bare => true
        | .double => c ∈ ['$', '`', '"', '\\']
        | .document => c ∈ ['$', '`', '\\']
      let here := if removed then [c] else ['\\', c]
      return quotedPieces here ++ (← expand run fuel q rest)
    | c :: rest =>
      if c = '$' || c = '`' then
        let (here, rest) ← expandDollar run fuel q cs
        return here ++ (← expand run fuel q rest)
      else if c = '\'' && q = .bare then
        let (body, rest) ← split (takeSingle rest)
        return .opening :: quotedPieces body.dropLast ++ (← expand run fuel q rest)
      else if c = '"' && q = .bare then
        let (body, rest) ← split (takeDouble (textFuel rest) rest)
        let body := body.dropLast
        let here ← expand run fuel .double body
        let noField := here.isEmpty && !body.isEmpty && (← scope).arguments.isEmpty &&
          (body = "$@".toList || body = "$\x7b@\x7d".toList)
        let after ← expand run fuel q rest
        return if noField then after else .opening :: here ++ after
      else if c = '"' && q = .double then expand run fuel q rest
      else return .fixed ⟨c, q ≠ .bare⟩ :: (← expand run fuel q rest)

def expandDollar (run : Substitution) (fuel : Nat) (q : Quoting) (cs : Chars) :
    Eval (List Piece × Chars) := do
  match fuel with
  | 0 => throw .endless
  | fuel + 1 =>
    let (raw, rest) ← split (takeDollar (textFuel cs) cs)
    match raw with
    | '$' :: '(' :: body =>
      if endsArithmetic raw then
        let body := (body.drop 1).dropLast.dropLast
        let text := pieceChars (← expand run fuel .double body)
        return (valuePieces q (← arithmetic text), rest)
      else return (valuePieces q (← run body.dropLast), rest)
    | '`' :: body => return (valuePieces q (← run (unescapeBackquoted body.dropLast)), rest)
    | '$' :: '\x7b' :: body => return (← expandBraced run fuel q body.dropLast, rest)
    | _ =>
      let name := parameterName rest
      if name.isEmpty then return ([.fixed ⟨'$', q ≠ .bare⟩], rest)
      let after := rest.drop name.length
      if name = ['@'] || (name = ['*'] && q = .bare) then return (← argumentPieces q, after)
      return (valuePieces q (← requireSet name), after)

def expandBraced (run : Substitution) (fuel : Nat) (q : Quoting) (body : Chars) :
    Eval (List Piece) := do
  match fuel with
  | 0 => throw .endless
  | fuel + 1 =>
    let counted := body.drop 1
    if body.head? = some '#' && !counted.isEmpty && parameterName counted = counted then
      return valuePieces q (decimal (← requireSet counted).length)
    let name := match body.takeWhile Char.isDigit with
      | [] => parameterName body
      | ds => ds
    let after := body.drop name.length
    if name.isEmpty then abandon "Bad substitution".toList
    if after.isEmpty then
      if name = ['@'] then argumentPieces q else return valuePieces q (← requireSet name)
    else
      match parameterOp? after with
      | none => abandon "Bad substitution".toList
      | some (op, word) =>
        let value? ← parameter? name
        let value := value?.getD []
        let isSet := value?.isSome && !(op.strict && value.isEmpty)
        match op.op with
        | '-' => if isSet then return valuePieces q value else expand run fuel q word
        | '+' => if isSet then expand run fuel q word else return []
        | '=' =>
          if isSet then return valuePieces q value
          else
            let text := pieceChars (← expand run fuel q word)
            assign (String.ofList name) text
            return valuePieces q text
        | '?' =>
          if isSet then return valuePieces q value
          else
            let text := pieceChars (← expand run fuel q word)
            let standard := if op.strict then "parameter not set or null" else "parameter not set"
            abandon (name ++ ": ".toList ++ if text.isEmpty then standard.toList else text)
        | _ =>
          let p := Pattern.ofGlyphs (pieceGlyphs (← expand run fuel .bare word))
          return valuePieces q (trimmed op p (← requireSet name))

end

/-- Fields under way: those that are complete, the one that is open, and whether a blank has just ended one. -/
structure Fields where
  complete : List Chars
  current : Option Chars
  afterBlank : Bool

namespace Fields

def push (f : Fields) (c : Char) : Fields :=
  { f with current := some (f.current.getD [] ++ [c]), afterBlank := false }

def close (f : Fields) (afterBlank : Bool) : Fields :=
  match f.current with
  | some field => ⟨f.complete ++ [field], none, afterBlank⟩
  | none => f

/-- A separator that is no blank ends a field even when nothing stands before it. -/
def separate (f : Fields) : Fields :=
  if f.current.isNone && f.afterBlank then { f with afterBlank := false }
  else ⟨f.complete ++ [f.current.getD []], none, false⟩

def step (separators : Chars) (f : Fields) : Piece → Fields
  | .fixed g => f.push g.char
  | .opening => { f with current := some (f.current.getD []), afterBlank := false }
  | .boundary => f.close false
  | .loose c =>
    if c ∉ separators then f.push c
    else if c ∈ standardSeparators then f.close true
    else f.separate

end Fields

def fields (separators : Chars) (ps : List Piece) : List Chars :=
  ((ps.foldl (Fields.step separators) ⟨[], none, false⟩).close false).complete

def expandFields (run : Substitution) (w : Word) : Eval (List Chars) := do
  let ps ← expand run (textFuel w) .bare w
  return fields (← separators) ps

def expandText (run : Substitution) (q : Quoting) (w : Word) : Eval Chars := do
  return pieceChars (← expand run (textFuel w) q w)

def expandPattern (run : Substitution) (w : Word) : Eval Pattern := do
  return Pattern.ofGlyphs (pieceGlyphs (← expand run (textFuel w) .bare w))

end SelfHealing.Shell
