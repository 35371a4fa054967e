import SelfHealing.Shell.Token

/-!
Commands from tokens. Words stay as written until they are expanded.
-/

namespace SelfHealing.Shell

abbrev Word := List Char

inductive RedirectKind
  | direction (d : Direction)
  | document (expanded : Bool)
  deriving DecidableEq, Repr

structure Redirection where
  fd : Nat
  kind : RedirectKind
  target : Word
  deriving DecidableEq, Repr

inductive Command
  | simple (line : Nat) (assignments : List (String × Word)) (words : List Word)
    (redirections : List Redirection)
  | redirected (body : Command) (redirections : List Redirection)
  | pipeline (negated : Bool) (stages : List Command)
  | both (first second : Command)
  | either (first second : Command)
  | sequence (first second : Command)
  | background (body : Command)
  | subshell (body : Command)
  | choice (condition yes no : Command)
  | loop (negated : Bool) (condition body : Command)
  | forEach (name : String) (words : Option (List Word)) (body : Command)
  | select (subject : Word) (branches : List (List Word × Command))
  | define (name : String) (body : Command)
  | nothing
  deriving Repr, Inhabited

inductive SyntaxError
  | lexical (e : LexError)
  | unexpected (token : Option Token) (expected : Option Token)
  | badLoopVariable
  deriving DecidableEq, Repr

def reservedWords : List String :=
  ["!", "case", "do", "done", "elif", "else", "esac", "fi", "for", "if", "in", "then", "until", "while", "\x7b",
    "\x7d"]

def quotedName (s : String) : String := "\"" ++ s ++ "\""

def Token.describe : Token → String
  | word raw => if String.ofList raw ∈ reservedWords then quotedName (String.ofList raw) else "word"
  | operator op => quotedName op
  | redirect .. | document .. => "redirection"
  | newline => "newline"

def SyntaxError.message : SyntaxError → String
  | lexical .unterminatedQuote => "Unterminated quoted string"
  | lexical .unterminatedSubstitution => "EOF in backquote substitution"
  | lexical (.unclosed '\x7d') => "Missing '\x7d'"
  | lexical (.unclosed close) =>
    "end of file unexpected (expecting " ++ quotedName (String.singleton close) ++ ")"
  | lexical .unclosedArithmetic => "Missing '))'"
  | unexpected token expected =>
    let found := (token.map Token.describe).getD "end of file" ++ " unexpected"
    match expected with
    | some t => found ++ " (expecting " ++ t.describe ++ ")"
    | none => found
  | badLoopVariable => "Bad for loop variable"

structure Fault where
  line : Nat
  error : SyntaxError
  deriving Repr

/-- Where a text ends: at its last line, and before what cannot be read there. -/
structure TextEnd where
  line : Nat
  error? : Option LexError

abbrev Parser := ReaderT TextEnd (StateT (List Located) (Except Fault))

namespace Parser

/-- Gives up at the token that stands here. -/
def throwHere {α : Type} (error : SyntaxError) : Parser α := do
  throw ⟨((← get).head?.map (·.line)).getD (← read).line, error⟩

def peek? : Parser (Option Token) := do
  match (← get).head?, (← read).error? with
  | some t, _ => return some t.token
  | none, some e => throwHere (.lexical e)
  | none, none => return none

def skip : Parser Unit := modify List.tail

/-- The token that stands here was not looked for. -/
def faultAt {α : Type} (expected : Option Token) : Parser α := do
  throwHere (.unexpected (← peek?) expected)

def fault {α : Type} : Parser α := faultAt none

def accept (t : Token) : Parser Bool := do
  if (← peek?) = some t then
    skip
    return true
  else return false

def expect (t : Token) : Parser Unit := do
  if !(← accept t) then faultAt (some t)

def keyword (s : String) : Token := .word s.toList

def skipNewlines (fuel : Nat) : Parser Unit := do
  match fuel with
  | 0 => return
  | fuel + 1 => if ← accept .newline then skipNewlines fuel

def isNameStart (c : Char) : Bool := c.isAlpha || c = '_'

def isName (cs : List Char) : Bool :=
  match cs with
  | c :: rest => isNameStart c && rest.all fun d ↦ d.isAlphanum || d = '_'
  | [] => false

def assignment? (raw : Word) : Option (String × Word) :=
  let name := raw.takeWhile (· ≠ '=')
  if isName name && name.length < raw.length then
    some (String.ofList name, raw.drop (name.length + 1))
  else none

def wordToken : Parser Word := do
  match ← peek? with
  | some (.word raw) => skip; return raw
  | _ => fault

def loopVariable : Parser Word := do
  match ← peek? with
  | some (.word raw) =>
    if isName raw then
      skip
      return raw
    else throwHere .badLoopVariable
  | _ => throwHere .badLoopVariable

def redirection? : Parser (Option Redirection) := do
  match ← peek? with
  | some (.redirect fd d) =>
    skip
    return some ⟨fd.getD d.standard, .direction d, ← wordToken⟩
  | some (.document fd expanded body) =>
    skip
    return some ⟨fd.getD 0, .document expanded, body⟩
  | _ => return none

def redirections (fuel : Nat) : Parser (List Redirection) := do
  match fuel with
  | 0 => return []
  | fuel + 1 =>
    match ← redirection? with
    | some r => return r :: (← redirections fuel)
    | none => return []

/-- The assignments, words and redirections of a simple command; assignments come before the first word. -/
structure Simple where
  assignments : List (String × Word)
  words : List Word
  redirections : List Redirection

def simpleParts (fuel : Nat) (s : Simple) : Parser Simple := do
  match fuel with
  | 0 => return s
  | fuel + 1 =>
    match ← redirection? with
    | some r => simpleParts fuel { s with redirections := s.redirections ++ [r] }
    | none =>
      match ← peek? with
      | some (.word raw) =>
        skip
        match s.words, assignment? raw with
        | [], some a => simpleParts fuel { s with assignments := s.assignments ++ [a] }
        | _, _ => simpleParts fuel { s with words := s.words ++ [raw] }
      | _ => return s

def words (fuel : Nat) : Parser (List Word) := do
  match fuel with
  | 0 => return []
  | fuel + 1 =>
    match ← peek? with
    | some (.word raw) => skip; return raw :: (← words fuel)
    | _ => return []

def closers : List Token :=
  ["then", "elif", "else", "fi", "do", "done", "esac", "\x7d"].map keyword ++
    [.operator ")", .operator ";;"]

def atEnd : Parser Bool := do
  match ← peek? with
  | none => return true
  | some t => return t ∈ closers

def patterns (fuel : Nat) : Parser (List Word) := do
  match fuel with
  | 0 => fault
  | fuel + 1 =>
    let p ← wordToken
    if ← accept (.operator "|") then return p :: (← patterns fuel) else return [p]

mutual

def compound (fuel : Nat) : Parser Command := do
  match fuel with
  | 0 => fault
  | fuel + 1 =>
    skipNewlines fuel
    let c ← list fuel
    skipNewlines fuel
    if ← atEnd then return c else return .sequence c (← compound fuel)

def list (fuel : Nat) : Parser Command := do
  match fuel with
  | 0 => fault
  | fuel + 1 =>
    let c ← andOr fuel
    if ← accept (.operator "&") then listRest fuel (.background c)
    else if ← accept (.operator ";") then listRest fuel c
    else return c

def listRest (fuel : Nat) (c : Command) : Parser Command := do
  match fuel with
  | 0 => fault
  | fuel + 1 =>
    if (← atEnd) || (← peek?) = some .newline then return c
    else return .sequence c (← list fuel)

def andOr (fuel : Nat) : Parser Command := do
  match fuel with
  | 0 => fault
  | fuel + 1 => andOrRest fuel (← pipeline fuel)

def andOrRest (fuel : Nat) (c : Command) : Parser Command := do
  match fuel with
  | 0 => fault
  | fuel + 1 =>
    if ← accept (.operator "&&") then
      skipNewlines fuel
      andOrRest fuel (.both c (← pipeline fuel))
    else if ← accept (.operator "||") then
      skipNewlines fuel
      andOrRest fuel (.either c (← pipeline fuel))
    else return c

def pipeline (fuel : Nat) : Parser Command := do
  match fuel with
  | 0 => fault
  | fuel + 1 =>
    let negated ← accept (keyword "!")
    let first ← command fuel
    let stages ← stagesAfter fuel first
    match negated, stages with
    | false, [c] => return c
    | _, _ => return .pipeline negated stages

def stagesAfter (fuel : Nat) (c : Command) : Parser (List Command) := do
  match fuel with
  | 0 => fault
  | fuel + 1 =>
    if ← accept (.operator "|") then
      skipNewlines fuel
      return c :: (← stagesAfter fuel (← command fuel))
    else return [c]

def command (fuel : Nat) : Parser Command := do
  match fuel with
  | 0 => fault
  | fuel + 1 =>
    match ← peek? with
    | some (.word raw) =>
      if raw = "if".toList then
        skip
        redirect fuel (← branches fuel)
      else if raw = "while".toList || raw = "until".toList then
        skip
        let condition ← compound fuel
        redirect fuel (.loop (raw = "until".toList) condition (← doBody fuel))
      else if raw = "for".toList then
        skip
        redirect fuel (← forLoop fuel)
      else if raw = "case".toList then
        skip
        let subject ← wordToken
        skipNewlines fuel
        expect (keyword "in")
        redirect fuel (.select subject (← selections fuel))
      else if raw = ['\x7b'] then
        skip
        let body ← compound fuel
        expect (keyword "\x7d")
        redirect fuel body
      else if keyword (String.ofList raw) ∈ closers then fault
      else simple fuel raw
    | some (.operator "(") =>
      skip
      let body ← compound fuel
      expect (.operator ")")
      redirect fuel (.subshell body)
    | some (.redirect ..) | some (.document ..) => simple fuel []
    | _ => fault

def simple (fuel : Nat) (raw : Word) : Parser Command := do
  match fuel with
  | 0 => fault
  | fuel + 1 =>
    match ← get with
    | ⟨_, .word _⟩ :: ⟨_, .operator "("⟩ :: rest =>
      set rest
      expect (.operator ")")
      skipNewlines fuel
      return .define (String.ofList raw) (← command fuel)
    | tokens =>
      let line := (tokens.head?.map (·.line)).getD 1
      let s ← simpleParts (tokens.length + 1) ⟨[], [], []⟩
      return .simple line s.assignments s.words s.redirections

def redirect (fuel : Nat) (c : Command) : Parser Command := do
  match ← redirections fuel with
  | [] => return c
  | rs => return .redirected c rs

def branches (fuel : Nat) : Parser Command := do
  match fuel with
  | 0 => fault
  | fuel + 1 =>
    let condition ← compound fuel
    expect (keyword "then")
    let yes ← compound fuel
    if ← accept (keyword "elif") then return .choice condition yes (← branches fuel)
    else if ← accept (keyword "else") then
      let no ← compound fuel
      expect (keyword "fi")
      return .choice condition yes no
    else
      expect (keyword "fi")
      return .choice condition yes .nothing

def doBody (fuel : Nat) : Parser Command := do
  match fuel with
  | 0 => fault
  | fuel + 1 =>
    expect (keyword "do")
    let body ← compound fuel
    expect (keyword "done")
    return body

def forLoop (fuel : Nat) : Parser Command := do
  match fuel with
  | 0 => fault
  | fuel + 1 =>
    let name := String.ofList (← loopVariable)
    skipNewlines fuel
    let values ← if ← accept (keyword "in") then do pure (some (← words fuel)) else pure none
    let _ ← accept (.operator ";")
    skipNewlines fuel
    return .forEach name values (← doBody fuel)

def selections (fuel : Nat) : Parser (List (List Word × Command)) := do
  match fuel with
  | 0 => fault
  | fuel + 1 =>
    skipNewlines fuel
    if ← accept (keyword "esac") then return []
    else
      let _ ← accept (.operator "(")
      let ps ← patterns fuel
      expect (.operator ")")
      skipNewlines fuel
      let body ← if ← atEnd then pure .nothing else compound fuel
      if ← accept (.operator ";;") then return (ps, body) :: (← selections fuel)
      else
        skipNewlines fuel
        if ← accept (keyword "esac") then return [(ps, body)] else faultAt (some (.operator ";;"))

end

def commandLine : Parser Command := do
  let c ← list (8 * (← get).length + 8)
  if (← get).isEmpty || (← accept .newline) then return c else fault

/-- The commands of a script line by line, and the fault that ends them. Each line runs before the next is read. -/
def program (fuel : Nat) (e : TextEnd) (tokens : List Located) : List Command × Option Fault :=
  match fuel with
  | 0 => ([], none)
  | fuel + 1 =>
    match tokens.dropWhile (·.token = .newline) with
    | [] => ([], e.error?.map fun error ↦ ⟨e.line, .lexical error⟩)
    | tokens =>
      match (commandLine.run e).run tokens with
      | .ok (c, rest) =>
        let (more, f) := program fuel e rest
        (c :: more, f)
      | .error f => ([], some f)

end Parser

def parseScript (cs : List Char) : List Command × Option Fault :=
  let (tokens, error?) := tokenize cs
  Parser.program (tokens.length + 1) ⟨1 + countLines cs, error?⟩ tokens

end SelfHealing.Shell
