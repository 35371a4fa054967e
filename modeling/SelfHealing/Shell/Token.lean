/-!
The words and operators of a command line. A word is kept as it is written, quotes and all; a here-document is
read from the lines that follow the one that asks for it.
-/

namespace SelfHealing.Shell

inductive LexError
  | unterminatedQuote
  | unterminatedSubstitution
  | unclosed (close : Char)
  | unclosedArithmetic
  deriving DecidableEq, Repr

/-- How a redirection works, and on which descriptor when none is given. -/
inductive Direction
  | input
  | output
  | append
  | duplicate (fd : Nat)
  deriving DecidableEq, Repr

def Direction.standard : Direction → Nat
  | input => 0
  | output | append => 1
  | duplicate fd => fd

inductive Token
  | word (raw : List Char)
  | operator (text : String)
  | redirect (fd : Option Nat) (direction : Direction)
  | document (fd : Option Nat) (expanded : Bool) (body : List Char)
  | newline
  deriving DecidableEq, Repr

structure Located where
  line : Nat
  token : Token
  deriving DecidableEq, Repr

def isOperatorChar (c : Char) : Bool :=
  c ∈ [';', '&', '|', '<', '>', '(', ')']

def isSpace (c : Char) : Bool := c = ' ' || c = '\t'

def endsWord (c : Char) : Bool := isSpace c || c = '\n' || isOperatorChar c

def textFuel (cs : List Char) : Nat := 4 * cs.length + 16

abbrev Split := Except LexError (List Char × List Char)

def takeSingle : List Char → Split
  | [] => .error .unterminatedQuote
  | '\'' :: rest => .ok (['\''], rest)
  | c :: rest => do
    let (taken, rest) ← takeSingle rest
    return (c :: taken, rest)

mutual

def takeDouble (fuel : Nat) (cs : List Char) : Split := do
  match fuel, cs with
  | _, [] => .error .unterminatedQuote
  | 0, _ => .error .unterminatedQuote
  | _ + 1, '"' :: rest => return (['"'], rest)
  | fuel + 1, '\\' :: c :: rest =>
    let (taken, rest) ← takeDouble fuel rest
    return ('\\' :: c :: taken, rest)
  | fuel + 1, cs@(c :: rest) =>
    let (first, rest) ← if c = '$' || c = '`' then takeDollar fuel cs else .ok ([c], rest)
    let (taken, rest) ← takeDouble fuel rest
    return (first ++ taken, rest)

/-- A substitution at the front of a text, or its first character. -/
def takeDollar (fuel : Nat) (cs : List Char) : Split := do
  match fuel, cs with
  | 0, _ => .error .unterminatedSubstitution
  | fuel + 1, '$' :: '(' :: '(' :: rest =>
    match takeNested fuel ')' ('(' :: rest) with
    | .ok (taken, rest) => return ('$' :: '(' :: taken, rest)
    | .error (.unclosed _) => .error .unclosedArithmetic
    | .error e => .error e
  | fuel + 1, '$' :: '(' :: rest =>
    let (taken, rest) ← takeNested fuel ')' rest
    return ('$' :: '(' :: taken, rest)
  | fuel + 1, '$' :: '\x7b' :: rest =>
    let (taken, rest) ← takeNested fuel '\x7d' rest
    return ('$' :: '\x7b' :: taken, rest)
  | fuel + 1, '`' :: rest =>
    let (taken, rest) ← takeBackquoted fuel rest
    return ('`' :: taken, rest)
  | _ + 1, c :: rest => return ([c], rest)
  | _ + 1, [] => .error .unterminatedSubstitution

def takeBackquoted (fuel : Nat) (cs : List Char) : Split := do
  match fuel, cs with
  | _, [] => .error .unterminatedSubstitution
  | 0, _ => .error .unterminatedSubstitution
  | _ + 1, '`' :: rest => return (['`'], rest)
  | fuel + 1, '\\' :: c :: rest =>
    let (taken, rest) ← takeBackquoted fuel rest
    return ('\\' :: c :: taken, rest)
  | fuel + 1, c :: rest =>
    let (taken, rest) ← takeBackquoted fuel rest
    return (c :: taken, rest)

/-- Text up to a closing character that belongs to no part of the text, and with it. -/
def takeNested (fuel : Nat) (close : Char) (cs : List Char) : Split := do
  match fuel, cs with
  | _, [] => .error (.unclosed close)
  | 0, _ => .error (.unclosed close)
  | fuel + 1, c :: rest =>
    if c = close then return ([c], rest)
    else
      let (first, rest) ← takePiece fuel (c :: rest)
      let (taken, rest) ← takeNested fuel close rest
      return (first ++ taken, rest)

/-- A quoted part, a substitution, a group in parentheses or a single character. -/
def takePiece (fuel : Nat) (cs : List Char) : Split := do
  match fuel, cs with
  | 0, _ => .error .unterminatedQuote
  | _ + 1, '\\' :: c :: rest => return (['\\', c], rest)
  | _ + 1, '\'' :: rest =>
    let (taken, rest) ← takeSingle rest
    return ('\'' :: taken, rest)
  | fuel + 1, '"' :: rest =>
    let (taken, rest) ← takeDouble fuel rest
    return ('"' :: taken, rest)
  | fuel + 1, '(' :: rest =>
    let (taken, rest) ← takeNested fuel ')' rest
    return ('(' :: taken, rest)
  | fuel + 1, cs@(c :: rest) => if c = '$' || c = '`' then takeDollar fuel cs else return ([c], rest)
  | _ + 1, [] => .error .unterminatedQuote

end

def takeWord (fuel : Nat) (cs : List Char) : Split := do
  match fuel, cs with
  | 0, _ => return ([], cs)
  | _ + 1, [] => return ([], [])
  | fuel + 1, '\\' :: '\n' :: rest => takeWord fuel rest
  | fuel + 1, c :: rest =>
    if endsWord c then return ([], c :: rest)
    else
      let (first, rest) ← takePiece fuel (c :: rest)
      let (taken, rest) ← takeWord fuel rest
      return (first ++ taken, rest)

def operators : List String := ["&&", "||", ";;", ";", "&", "|", "(", ")"]

def operatorAt? (cs : List Char) : Option String :=
  operators.find? fun op ↦ op.toList.isPrefixOf cs

/-- A redirection operator and the text after it, which names the file or the descriptor. -/
def directionAt? : List Char → Option (Direction × List Char)
  | '>' :: '>' :: rest => some (.append, rest)
  | '>' :: '&' :: rest => some (.duplicate 1, rest)
  | '>' :: '|' :: rest => some (.output, rest)
  | '>' :: rest => some (.output, rest)
  | '<' :: '&' :: rest => some (.duplicate 0, rest)
  | '<' :: rest => some (.input, rest)
  | _ => none

/-- A here-document that has been asked for: the delimiter as written, and whether tabs at the front of its
lines are dropped. -/
structure Awaited where
  delimiter : List Char
  indented : Bool
  deriving Repr

def unquote : List Char → List Char
  | [] => []
  | '\\' :: c :: rest => c :: unquote rest
  | c :: rest => if c = '\'' || c = '"' then unquote rest else c :: unquote rest

def isQuotedWord (cs : List Char) : Bool := cs.any fun c ↦ c = '\'' || c = '"' || c = '\\'

/-- The lines before the delimiter line, and what follows that. Without one all of the text belongs to
the document. -/
def takeDocument (fuel : Nat) (a : Awaited) (cs : List Char) : List Char × List Char :=
  match fuel with
  | 0 => ([], cs)
  | fuel + 1 =>
    if cs.isEmpty then ([], [])
    else
      let line := cs.takeWhile (· ≠ '\n')
      let rest := (cs.drop line.length).drop 1
      let line := if a.indented then line.dropWhile (· = '\t') else line
      if line = unquote a.delimiter then ([], rest)
      else
        let (more, rest) := takeDocument fuel a rest
        (line ++ '\n' :: more, rest)

def takeDocuments (cs : List Char) : List Awaited → List (List Char) × List Char
  | [] => ([], cs)
  | a :: more =>
    let (body, rest) := takeDocument (cs.length + 1) a cs
    let (bodies, rest) := takeDocuments rest more
    (body :: bodies, rest)

/-- A descriptor in front of a redirection. -/
def descriptorAt? (cs : List Char) : Option (Nat × List Char) :=
  let ds := cs.takeWhile Char.isDigit
  let rest := cs.drop ds.length
  if ds.isEmpty || !(rest.head? = some '<' || rest.head? = some '>') then none
  else some (ds.foldl (fun n d ↦ n * 10 + (d.toNat - '0'.toNat)) 0, rest)

def countLines (cs : List Char) : Nat := cs.count '\n'

/-- Tokens whose here-documents are still empty, the bodies of those in their order, and the error that cuts a text
off. -/
structure Lexed where
  tokens : List Located
  bodies : List (List Char)
  error? : Option LexError

def Lexed.cons (line : Nat) (t : Token) (l : Lexed) : Lexed := { l with tokens := ⟨line, t⟩ :: l.tokens }

/-- The tokens of a text from a line on, with the here-documents that the line has asked for so far. -/
def lex (fuel : Nat) (line : Nat) (awaited : List Awaited) (cs : List Char) : Lexed :=
  match fuel with
  | 0 => ⟨[], [], none⟩
  | fuel + 1 =>
    match cs with
    | [] => ⟨[], (takeDocuments [] awaited).1, none⟩
    | '\\' :: '\n' :: rest => lex fuel (line + 1) awaited rest
    | '\n' :: rest =>
      let (bodies, after) := takeDocuments rest awaited
      let more := lex fuel (line + 1 + countLines (rest.take (rest.length - after.length))) [] after
      Lexed.cons line .newline { more with bodies := bodies ++ more.bodies }
    | c :: rest =>
      if isSpace c then lex fuel line awaited rest
      else if c = '#' then lex fuel line awaited (rest.dropWhile (· ≠ '\n'))
      else
        let (fd, body) := match descriptorAt? cs with
          | some (n, body) => (some n, body)
          | none => (none, cs)
        if "<<".toList.isPrefixOf body then
          let indented := (body.drop 2).head? = some '-'
          let text := ((body.drop 2).drop (if indented then 1 else 0)).dropWhile isSpace
          match takeWord (textFuel text) text with
          | .ok (delimiter, rest) =>
            (lex fuel line (awaited ++ [⟨delimiter, indented⟩]) rest).cons line
              (.document fd (!isQuotedWord delimiter) [])
          | .error e => ⟨[], [], some e⟩
        else
          match directionAt? body, operatorAt? cs with
          | some (direction, rest), _ => (lex fuel line awaited rest).cons line (.redirect fd direction)
          | none, some op => (lex fuel line awaited (cs.drop op.length)).cons line (.operator op)
          | none, none =>
            match takeWord (textFuel cs) cs with
            | .ok (raw, rest) =>
              let next := line + countLines (cs.take (cs.length - rest.length))
              (lex fuel next awaited rest).cons line (.word raw)
            | .error e => ⟨[], [], some e⟩

def fill : List Located → List (List Char) → List Located
  | ⟨line, .document fd expanded _⟩ :: rest, body :: bodies =>
    ⟨line, .document fd expanded body⟩ :: fill rest bodies
  | t :: rest, bodies => t :: fill rest bodies
  | [], _ => []

def tokenize (cs : List Char) : List Located × Option LexError :=
  let l := lex (cs.length + 1) 1 [] cs
  (fill l.tokens l.bodies, l.error?)

end SelfHealing.Shell
