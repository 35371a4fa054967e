import SelfHealing.Shell.Condition
import SelfHealing.Shell.Expansion
import SelfHealing.Shell.Format

/-!
The commands that a shell carries out itself and that run no other command.
-/

namespace SelfHealing.Shell

namespace Builtin

def text (s : String) : Chars := s.toList

def fail (name message : Chars) (n : Nat) : Eval Nat := do
  complain (name ++ text ": " ++ message)
  return n

def echo (args : List Chars) : Eval Nat := do
  print (echoText args)
  return 0

def printf : List Chars → Eval Nat
  | [] => fail (text "printf") (text "usage: printf format [arg ...]") 2
  | format :: args => do
    let p := formatted format args
    print p.text
    for c in p.complaints do complain (text "printf: " ++ c)
    return if p.refused then 2 else if p.complaints.isEmpty then 0 else 1

def test (name : Chars) (args : List Chars) : Eval Nat := do
  match Condition.eval (← world) args with
  | .ok v => return if v then 0 else 1
  | .error e => fail name e.message 2

def bracket (args : List Chars) : Eval Nat := do
  if args.getLast? = some [']'] then test ['['] args.dropLast
  else fail ['['] (text "missing ]") 2

/-- A path without empty parts, single dots, and parts that double dots take back. -/
def normalized (path : Chars) : Chars :=
  let parts := path.splitOn '/'
  let kept := parts.foldl (fun kept part ↦
    if part.isEmpty || part = ['.'] then kept
    else if part = ['.', '.'] then kept.drop 1
    else part :: kept) []
  if kept.isEmpty then ['/'] else kept.reverse.flatMap fun part ↦ '/' :: part

def absolute (path : Chars) : Eval Chars := do
  let here := (← scope).directory
  return normalized (if path.head? = some '/' then path else here ++ '/' :: path)

/-- Options that make no difference without links. -/
def cdOptions : List Chars := [text "-L", text "-P", text "--"]

def cd (args : List Chars) : Eval Nat := do
  let args := args.filter (!cdOptions.contains ·)
  let back := args.head? = some ['-']
  let goal ← match args.head? with
    | none => do pure ((← valueOf? "HOME").getD [])
    | some a => if back then do pure ((← valueOf? "OLDPWD").getD []) else pure a
  if goal.isEmpty then return 0
  let path ← absolute goal
  if !isDirectory path then fail (text "cd") (text "can't cd to " ++ goal) 2
  else
    modifyScope fun s ↦
      { (s.assign "OLDPWD" s.directory).assign "PWD" path with directory := path }
    if back then print (path ++ ['\n'])
    return 0

def pwd : Eval Nat := do
  print ((← scope).directory ++ ['\n'])
  return 0

def isValidName (name : Chars) : Bool := Parser.isName name

def binding (arg : Chars) : Chars × Option Chars :=
  let name := arg.takeWhile (· ≠ '=')
  (name, if name.length < arg.length then some (arg.drop (name.length + 1)) else none)

def quoted (value : Chars) : Chars :=
  '\'' :: value.flatMap (fun c ↦ if c = '\'' then text "'\"'\"'" else [c]) ++ ['\'']

def exportAll : List Chars → Eval Nat
  | [] => return 0
  | arg :: rest => do
    let (name, value) := binding arg
    if !isValidName name then abandon (text "export: " ++ name ++ text ": bad variable name")
    let name := String.ofList name
    match value with
    | some value =>
      if ← isConstant name then abandon (text "export: " ++ readOnly name)
      modifyScope (·.assignExported name value)
    | none => modifyScope (·.markExported name)
    exportAll rest

def exportBuiltin (args : List Chars) : Eval Nat := do
  match args.filter (· ≠ text "--") with
  | [] | [['-', 'p']] =>
    for v in (← scope).bindings do
      if v.exported then
        print (text "export " ++ v.name.toList ++ '=' :: quoted v.value ++ ['\n'])
    return 0
  | args => exportAll args

def readonly : List Chars → Eval Nat
  | [] => return 0
  | arg :: rest => do
    let (name, value) := binding arg
    if !isValidName name then abandon (text "readonly: " ++ name ++ text ": bad variable name")
    let name := String.ofList name
    if value.isSome && (← isConstant name) then abandon (text "readonly: " ++ readOnly name)
    modifyScope fun s ↦
      let s := match value with
        | some value => s.assign name value
        | none => s
      { s with constants := name :: s.constants }
    readonly rest

/-- Variables of a function: they are what they were before when it is left. -/
def localAll : List Chars → Eval Nat
  | [] => return 0
  | arg :: rest => do
    let (name, value) := binding arg
    let name := String.ofList name
    match (← scope).locals with
    | none => abandon (text "local: not in a function")
    | some saved =>
      if value.isSome && (← isConstant name) then abandon (text "local: " ++ readOnly name)
      let before := (← scope).bindings.find? (·.name = name)
      modifyScope fun s ↦
        let s := match value with
          | some value => s.assign name value
          | none => s
        { s with locals := some ((name, before) :: saved) }
      localAll rest

/-- Takes the variables of a function back, the latest first. -/
def restoreLocals (s : Scope) : Scope :=
  (s.locals.getD []).foldl (fun s (name, before) ↦
    match before with
    | some v =>
      let others := s.unassign name
      { others with bindings := others.bindings ++ [v] }
    | none => s.unassign name) s

def unset (args : List Chars) : Eval Nat := do
  let functions := args.head? = some ['-', 'f']
  for word in args.filter fun a ↦ a.head? ≠ some '-' do
    let name := String.ofList word
    if functions then
      modifyScope fun s ↦ { s with functions := s.functions.filter (·.1 ≠ name) }
    else
      if !isValidName word then abandon (text "unset: " ++ word ++ text ": bad variable name")
      if ← isConstant name then abandon (text "unset: " ++ readOnly name)
      modifyScope (·.unassign name)
  return 0

def count (name : String) (standard : Nat) : List Chars → Eval Nat
  | [] => return standard
  | arg :: _ => do
    match Text.natural? 10 arg with
    | some n => return n
    | none => abandon (text (name ++ ": Illegal number: ") ++ arg)

def shift (args : List Chars) : Eval Nat := do
  let n ← count "shift" 1 args
  if (← scope).arguments.length < n then abandon (text "shift: can't shift that many")
  modifyScope fun s ↦ { s with arguments := s.arguments.drop n }
  return 0

def setFlag (on : Bool) (c : Char) : Eval Unit := do
  match c with
  | 'e' => modifyScope ({ · with stopsOnFailure := on })
  | 'u' => modifyScope ({ · with refusesUnset := on })
  | 'x' => modifyScope ({ · with traces := on })
  | 'v' | 'f' | 'n' | 'm' | 'a' | 'b' | 'C' | 'h' => pure ()
  | c => abandon (text "set: Illegal option " ++ [if on then '-' else '+', c])

def setFlags (on : Bool) : Chars → Eval Unit
  | [] => pure ()
  | c :: rest => do
    setFlag on c
    setFlags on rest

def setLongFlag (on : Bool) (name : Chars) : Eval Unit :=
  match String.ofList name with
  | "errexit" => setFlag on 'e'
  | "nounset" => setFlag on 'u'
  | "xtrace" => setFlag on 'x'
  | "noglob" | "ignoreeof" | "interactive" | "monitor" | "noexec" | "stdin" | "verbose" | "vi" | "emacs"
  | "noclobber" | "allexport" | "notify" | "nolog" | "debug" => pure ()
  | _ => abandon (text "set: Illegal option -o " ++ name)

def set : List Chars → Eval Nat
  | [] => return 0
  | ['-', '-'] :: rest => do
    modifyScope ({ · with arguments := rest })
    return 0
  | [sign, 'o'] :: name :: rest => do
    setLongFlag (sign = '-') name
    set rest
  | ('-' :: c :: cs) :: rest => do
    setFlags true (c :: cs)
    set rest
  | ('+' :: c :: cs) :: rest => do
    setFlags false (c :: cs)
    set rest
  | args => do
    modifyScope ({ · with arguments := args })
    return 0

/-- What a mask leaves to somebody, whose bits are at a place. -/
def permissions (mask place : Nat) : Chars :=
  let left := 7 - mask / place % 8
  (if left / 4 % 2 = 1 then ['r'] else []) ++ (if left / 2 % 2 = 1 then ['w'] else []) ++
    (if left % 2 = 1 then ['x'] else [])

def umask : List Chars → Eval Nat
  | [['-', 'S']] => do
    let mask := (← scope).mask
    print (text "u=" ++ permissions mask 64 ++ text ",g=" ++ permissions mask 8 ++ text ",o=" ++
      permissions mask 1 ++ ['\n'])
    return 0
  | [] => do
    print (Text.paddedDigits 8 4 (← scope).mask ++ ['\n'])
    return 0
  | arg :: _ => do
    match Text.natural? 8 arg with
    | some n =>
      modifyScope ({ · with mask := n % 512 })
      return 0
    | none => fail (text "umask") (text "Illegal number: " ++ arg) 2

/-- The characters of an input line with their backslashes resolved, whether a newline ended it, and what follows. -/
def inputLine (raw : Bool) : Chars → List Glyph × Bool × Chars
  | [] => ([], false, [])
  | '\n' :: rest => ([], true, rest)
  | [c] => if c = '\\' && !raw then ([], false, []) else ([⟨c, false⟩], false, [])
  | c :: d :: rest =>
    if c = '\\' && !raw then
      let (line, ended, after) := inputLine raw rest
      (if d = '\n' then line else ⟨d, true⟩ :: line, ended, after)
    else
      let (line, ended, after) := inputLine raw (d :: rest)
      (⟨c, false⟩ :: line, ended, after)

def trimGlyphs (blank : Glyph → Bool) (gs : List Glyph) : List Glyph :=
  ((gs.dropWhile blank).reverse.dropWhile blank).reverse

/-- Gives each name a field of a line, and the last name all that is left. -/
def distribute (separators : Chars) (gs : List Glyph) : List String → Eval Unit
  | [] => pure ()
  | [name] =>
    let blank := fun (g : Glyph) ↦ !g.quoted && g.char ∈ separators && g.char ∈ standardSeparators
    assign name ((trimGlyphs blank gs).map (·.char))
  | name :: rest => do
    let blank := fun (g : Glyph) ↦ !g.quoted && g.char ∈ separators && g.char ∈ standardSeparators
    let divides := fun (g : Glyph) ↦ !g.quoted && g.char ∈ separators
    let gs := gs.dropWhile blank
    let field := gs.takeWhile (!divides ·)
    let after := (gs.drop field.length).dropWhile blank
    let after := if after.head?.any divides then after.drop 1 else after
    assign name (field.map (·.char))
    distribute separators after rest

def read (args : List Chars) : Eval Nat := do
  let raw := args.head? = some ['-', 'r']
  let words := if raw then args.drop 1 else args
  let names := words.map String.ofList
  if names.isEmpty then return ← fail (text "read") (text "arg count") 2
  if let some word := words.find? (!isValidName ·) then
    return ← fail (text "read") (word ++ text ": bad variable name") 2
  if let some name := names.find? (· ∈ (← scope).constants) then
    return ← fail (text "read") (readOnly name) 2
  let (line, ended, rest) := inputLine raw (← world).input
  modifyWorld ({ · with input := rest })
  distribute (← separators) line names
  return if ended then 0 else 1

def signals : List (String × Nat) :=
  [("EXIT", 0), ("HUP", 1), ("INT", 2), ("QUIT", 3), ("ILL", 4), ("TRAP", 5), ("ABRT", 6), ("BUS", 7),
    ("FPE", 8), ("KILL", 9), ("USR1", 10), ("SEGV", 11), ("USR2", 12), ("PIPE", 13), ("ALRM", 14),
    ("TERM", 15), ("CHLD", 17), ("CONT", 18), ("STOP", 19), ("TSTP", 20), ("URG", 23), ("WINCH", 28)]

/-- A signal by its number or its name, with or without `SIG` in front. -/
def signal? (cs : Chars) : Option (String × Nat) :=
  match Text.natural? 10 cs with
  | some n => signals.find? (·.2 = n)
  | none =>
    let name := String.ofList (if "SIG".toList.isPrefixOf cs then cs.drop 3 else cs)
    signals.find? (·.1 = name)

def isHarmless (signal : Nat) : Bool := signal ∈ [0, 17, 18, 23, 28]

def isStopping (signal : Nat) : Bool := signal ∈ [19, 20]

def setTraps (action : Option Chars) : List Chars → Eval Nat
  | [] => return 0
  | name :: rest => do
    match signal? name with
    | none =>
      report (text "trap: " ++ name ++ text ": bad trap")
      return 1
    | some (key, _) =>
      modifyScope fun s ↦
        let others := s.traps.filter (·.1 ≠ key)
        { s with traps := match action with
            | some a => (key, a) :: others
            | none => others }
      setTraps action rest

def trap (args : List Chars) : Eval Nat := do
  match args.filter (· ≠ text "--") with
  | [] =>
    for (_, key) in (signals.map fun (key, n) ↦ (n, key)).mergeSort fun a b ↦ a.1 ≤ b.1 do
      if let some action := (← scope).traps.lookup key then
        print (text "trap -- " ++ quoted action ++ ' ' :: key.toList ++ ['\n'])
    return 0
  | [one] => setTraps none [one]
  | action :: names =>
    if action = ['-'] || (Text.natural? 10 action).isSome then
      setTraps none (if action = ['-'] then names else action :: names)
    else setTraps (some action) names

/-- What is asked of a kill: to list, or to send a signal to some. -/
inductive KillRequest
  | list (signals : List Chars)
  | send (signal : String × Nat) (targets : List Chars)
  | unknownSignal (name : Chars)
  | illegalOption (letter : Char)
  deriving Repr

def killRequest (args : List Chars) : KillRequest :=
  match args with
  | ['-', 'l'] :: rest => .list rest
  | ['-', 's'] :: name :: rest =>
    match signal? name with
    | some s => .send s rest
    | none => .unknownSignal name
  | ('-' :: c :: cs) :: rest =>
    match signal? (c :: cs) with
    | some s => .send s (rest.filter (· ≠ ['-', '-']))
    | none => .illegalOption c
  | args => .send ("TERM", 15) args

def signalText : Nat → Option String
  | 1 => some "Hangup"
  | 3 => some "Quit"
  | 4 => some "Illegal instruction"
  | 5 => some "Trace/breakpoint trap"
  | 6 => some "Aborted"
  | 7 => some "Bus error"
  | 8 => some "Floating point exception"
  | 9 => some "Killed"
  | 10 => some "User defined signal 1"
  | 11 => some "Segmentation fault"
  | 12 => some "User defined signal 2"
  | 14 => some "Alarm clock"
  | 15 => some "Terminated"
  | _ => none

def tellSignal (signal : Nat) : Eval Unit := do
  if let some told := signalText signal then report (text told)

def waitFor (arg : Chars) : Eval Nat := do
  match (Text.natural? 10 arg).bind (← world).job? with
  | some job =>
    modifyWorld fun w ↦ { w with time := max w.time job.ended }
    if let some signal := job.signal then tellSignal signal
    return job.status
  | none => if arg.head? = some '%' then fail (text "wait") (text "No such job: " ++ arg) 2 else return 127

def wait : List Chars → Eval Nat
  | [] => do
    let jobs := (← world).jobs
    modifyWorld fun w ↦ { w with time := max w.time w.lastJobEnd }
    for job in jobs.reverse do
      if let some signal := job.signal then tellSignal signal
    return 0
  | [arg] => waitFor arg
  | arg :: rest => do
    let _ ← waitFor arg
    wait rest

def exit (args : List Chars) : Eval Nat := do
  throw (.exit ((← count "exit" (← status) args) % 256))

def leave (args : List Chars) : Eval Nat := do
  let n ← count "return" (← status) args
  setStatus (n % 256)
  throw .leaveFunction

/-- Leaves loops or goes on to their next round; outside of loops nothing happens. -/
def loopJump (name : String) (jump : Nat → Stop) (args : List Chars) : Eval Nat := do
  let n ← count name 1 args
  if n = 0 then abandon (text (name ++ ": Illegal number: 0"))
  let depth := (← scope).loops
  if depth = 0 then return 0
  setStatus 0
  throw (jump (min n depth))

def lookup? (name : Chars) : Option (List Chars → Eval Nat) :=
  match String.ofList name with
  | ":" | "true" => some fun _ ↦ return 0
  | "false" => some fun _ ↦ return 1
  | "echo" => some echo
  | "printf" => some printf
  | "test" => some (test name)
  | "[" => some bracket
  | "cd" | "chdir" => some cd
  | "pwd" => some fun _ ↦ pwd
  | "export" => some exportBuiltin
  | "readonly" => some fun args ↦ readonly (args.filter (· ≠ text "-p"))
  | "local" => some localAll
  | "unset" => some unset
  | "shift" => some shift
  | "set" => some set
  | "umask" => some umask
  | "read" => some read
  | "trap" => some trap
  | "wait" => some wait
  | "exit" => some exit
  | "return" => some leave
  | "break" => some (loopJump "break" .leaveLoops)
  | "continue" => some (loopJump "continue" .nextRound)
  | "fg" | "bg" => some fun _ ↦ fail name (text "No current job") 2
  | "times" | "hash" | "alias" | "unalias" | "ulimit" | "jobs" => some fun _ ↦ return 0
  | _ => none

/-- Commands whose assignments outlast them. -/
def isSpecial (name : Chars) : Bool :=
  String.ofList name ∈
    [":", ".", "break", "continue", "eval", "exec", "exit", "export", "readonly", "return", "set", "shift",
      "times", "trap", "unset"]

/-- Special commands, and those that count as such where commands are told apart. -/
def countsAsSpecial (name : Chars) : Bool := isSpecial name || name = text "local"

end Builtin

end SelfHealing.Shell
