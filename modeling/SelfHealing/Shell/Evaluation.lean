import SelfHealing.Shell.Utility

/-!
The evaluation of commands. Stages of a pipeline run one after the other, each on the output of the one before; a
background command runs at once, and its time does not count for the shell. A command that uses up its fuel is taken
to run forever.
-/

namespace SelfHealing.Shell

/-- The time by which a background command starts behind the shell. -/
def backgroundDelay : Nat := 1000000

/-- A shell that has just been started, with the exported variables of another. -/
def Scope.child (s : Scope) (name : Chars) (arguments : List Chars) : Scope :=
  { bindings := s.bindings.filter (·.exported)
    functions := []
    name := name
    arguments := arguments
    status := 0
    directory := s.directory
    mask := s.mask
    constants := []
    locals := none
    stopsOnFailure := false
    refusesUnset := false
    traces := false
    traps := s.traps.filter (·.2.isEmpty)
    channels := s.channels
    loops := 0
    line := 1
    substituted := 0 }

def stripNewlines (cs : Chars) : Chars := Text.dropTrailing (· = '\n') cs

/-- Goes on after a loop body that was left: whether the loop is over. -/
def loopStop : Stop → Eval Bool
  | .leaveLoops n => if n ≤ 1 then return true else throw (.leaveLoops (n - 1))
  | .nextRound n => if n ≤ 1 then return false else throw (.nextRound (n - 1))
  | e => throw e

def inLoop (body : Eval Unit) : Eval Unit := do
  modifyScope fun s ↦ { s with loops := s.loops + 1 }
  try body catch e =>
    modifyScope fun s ↦ { s with loops := s.loops - 1 }
    throw e
  modifyScope fun s ↦ { s with loops := s.loops - 1 }

def applyAssignments (run : Substitution) (exported : Bool) :
    List (String × Word) → Eval (List Chars)
  | [] => return []
  | (name, word) :: rest => do
    let value ← expandText run .bare word
    assign name value
    if exported then modifyScope (·.markExported name)
    return (name.toList ++ '=' :: value) :: (← applyAssignments run exported rest)

def trace (errors : Option Channel) (parts : List Chars) : Eval Unit := do
  if (← scope).traces then
    if let some c := errors then
      modifyWorld (·.write ("+ ".toList ++ joinWith [' '] parts ++ ['\n']) c)

def redirect (run : Substitution) (r : Redirection) : Eval Bool := do
  match r.kind with
  | .document expanded =>
    let body ← if expanded then expandText run .document r.target else pure r.target
    modifyWorld ({ · with input := body })
    return true
  | .direction d =>
    let target ← expandText run .bare r.target
    match d with
    | .duplicate _ =>
      if target = ['-'] then
        closeChannel r.fd
        return true
      match Text.natural? 10 target with
      | none => abandon "Syntax error: Bad fd number".toList
      | some n =>
        if n = 0 then return true
        match ← channel? n with
        | some c => setChannel r.fd c; return true
        | none =>
          complain (target ++ ": Bad file descriptor".toList)
          return false
    | .input =>
      match ← Utility.readFile? target with
      | some text => modifyWorld ({ · with input := text }); return true
      | none =>
        complain ("cannot open ".toList ++ target ++ ": No such file".toList)
        return false
    | .output | .append =>
      if target = nullDevice then
        setChannel r.fd .nowhere
        return true
      let path ← Builtin.absolute target
      let parent := path.reverse.dropWhile (· ≠ '/') |>.reverse
      if isDirectory path then
        complain ("cannot create ".toList ++ target ++ ": Is a directory".toList)
        return false
      if !isDirectory (Builtin.normalized parent) then
        complain ("cannot create ".toList ++ target ++ ": Directory nonexistent".toList)
        return false
      modifyWorld fun w ↦
        let before := if d = .append then (fileText w.files path).getD [] else []
        { w with files := putFile path before w.files }
      setChannel r.fd (.file path)
      return true

def redirectAll (run : Substitution) : List Redirection → Eval Bool
  | [] => return true
  | r :: rest => do
    if ← redirect run r then redirectAll run rest else return false

/-- Runs with redirections in force; a failed one is the result. -/
def withRedirections (run : Substitution) (rs : List Redirection) (body : Eval Unit) : Eval Unit := do
  let channels := (← scope).channels
  let input := (← world).input
  let changesInput := rs.any (·.fd = 0)
  let restore : Eval Unit := do
    modifyScope ({ · with channels := channels })
    if changesInput then modifyWorld ({ · with input := input })
  try
    if ← redirectAll run rs then body else setStatus 2
  catch e =>
    restore
    throw e
  restore

/-- A failure ends the shell when it is told to stop at failures and nothing tests this command. -/
def checkFailure (tested : Bool) : Eval Unit := do
  let s ← scope
  if s.stopsOnFailure && !tested && s.status ≠ 0 then throw (.exit s.status)

/-- Ends a background command now, if it has not ended; what it would have written later is gone. -/
def endJob (job : Job) (signal : Nat) (w : World) : World :=
  if job.ended ≤ w.time then w
  else
    { w with
      writes := w.writes.filter fun write ↦ write.job ≠ job.process || write.time ≤ w.time
      jobs := w.jobs.map fun j ↦
        if j.process = job.process then ⟨j.process, 128 + signal, some signal, w.time⟩ else j }

/-- Commands that the shell carries out itself and that may run others. -/
def isEvaluated (word : Chars) : Bool :=
  Builtin.isSpecial word || String.ofList word ∈ ["command", "type", "kill"]

/-- The path by which a program was found. -/
def placeOf (word : Chars) (name : String) : Chars :=
  if '/' ∈ word then word else "/usr/bin/".toList ++ name.toList

/-- Runs a command of the shell itself, which fails when its output goes nowhere. -/
def guarded (name : Chars) (body : Eval Nat) : Eval Nat := do
  modifyWorld ({ · with lost := false })
  let n ← body
  if (← world).lost && (← channel? 1).isNone then
    complain (name ++ ": ".toList ++ name ++ ": I/O error".toList)
    return 1
  return n

/-- Runs a program, which fails when its output goes nowhere. -/
def guardedProgram (word : Chars) (body : Eval Nat) : Eval Nat := do
  modifyWorld ({ · with lost := false })
  let n ← body
  if (← world).lost && (← channel? 1).isNone then
    report (word ++ ": write error: Bad file descriptor".toList)
    return 1
  return n

mutual

def eval (fuel : Nat) (tested : Bool) (c : Command) : Eval Unit := do
  match fuel with
  | 0 => throw .endless
  | fuel + 1 =>
    match c with
    | .nothing => setStatus 0
    | .simple line assignments words redirections =>
      modifyScope ({ · with line := line })
      evalSimple fuel assignments words redirections
      checkFailure tested
    | .redirected body rs =>
      withRedirections (substitute fuel) rs (eval fuel tested body)
    | .pipeline negated stages =>
      match stages with
      | [one] => eval fuel (tested || negated) one
      | _ => evalStages fuel stages
      if negated then setStatus (if (← status) = 0 then 1 else 0)
      else checkFailure tested
    | .both a b =>
      eval fuel true a
      if (← status) = 0 then eval fuel tested b
    | .either a b =>
      eval fuel true a
      if (← status) ≠ 0 then eval fuel tested b
    | .sequence a b =>
      eval fuel tested a
      eval fuel tested b
    | .background body =>
      let before ← world
      let process := processId + 1 + before.jobs.length
      pass backgroundDelay
      modifyWorld ({ · with job := process })
      let n ← withInput [] (inSubshell (eval fuel tested body))
      modifyWorld fun w ↦
        { w with time := before.time, job := before.job, jobs := ⟨process, n, none, w.time⟩ :: w.jobs }
      setStatus 0
    | .subshell body =>
      setStatus (← inSubshell (subshell fuel tested body))
      checkFailure tested
    | .choice condition yes no =>
      eval fuel true condition
      if (← status) = 0 then eval fuel tested yes else eval fuel tested no
    | .loop negated condition body =>
      inLoop (evalLoop fuel tested negated condition body 0)
    | .forEach name words body =>
      let values ← match words with
        | some ws => expandAll fuel ws
        | none => pure (← scope).arguments
      setStatus 0
      inLoop (evalFor fuel tested name values body)
    | .select subject branches =>
      let value ← expandText (substitute fuel) .bare subject
      setStatus 0
      evalBranches fuel tested value branches
    | .define name body =>
      modifyScope fun s ↦ { s with functions := (name, body) :: s.functions.filter (·.1 ≠ name) }
      setStatus 0

/-- The body of a subshell, with its own commands on exit. -/
def subshell (fuel : Nat) (tested : Bool) (body : Command) : Eval Unit := do
  match fuel with
  | 0 => throw .endless
  | fuel + 1 => withExitTrap fuel (eval fuel tested body)

/-- Runs to its end and then carries out what is set to happen on exit; the status is that of the run. -/
def withExitTrap (fuel : Nat) (body : Eval Unit) : Eval Unit := do
  match fuel with
  | 0 => throw .endless
  | fuel + 1 =>
    try body catch e =>
      match e with
      | .exit n => setStatus n
      | .endless | .killed _ => throw e
      | _ => pure ()
    match (← scope).traps.lookup "EXIT" with
    | none => pure ()
    | some action =>
      let n ← status
      modifyScope fun s ↦ { s with traps := s.traps.filter (·.1 ≠ "EXIT") }
      evalText fuel false action
      setStatus n

def evalStages (fuel : Nat) (stages : List Command) : Eval Unit := do
  match fuel, stages with
  | 0, _ => throw .endless
  | _, [] => pure ()
  | fuel + 1, [last] => setStatus (← inSubshell (subshell fuel false last))
  | fuel + 1, stage :: rest =>
    let (_, text) ← collecting (inSubshell (subshell fuel false stage))
    withInput text (evalStages fuel rest)

def evalLoop (fuel : Nat) (tested negated : Bool) (condition body : Command) (last : Nat) :
    Eval Unit := do
  match fuel with
  | 0 => throw .endless
  | fuel + 1 =>
    let stopped ← try
        eval fuel true condition
        pure false
      catch e => do
        let stopped ← loopStop e
        if !stopped then setStatus (if negated then 1 else 0)
        pure stopped
    if stopped then return
    if ((← status) = 0) = negated then setStatus last
    else
      let stopped ← try
          eval fuel tested body
          pure false
        catch e => loopStop e
      if stopped then return
      evalLoop fuel tested negated condition body (← status)

def evalFor (fuel : Nat) (tested : Bool) (name : String) (values : List Chars) (body : Command) :
    Eval Unit := do
  match fuel, values with
  | 0, _ => throw .endless
  | _, [] => pure ()
  | fuel + 1, value :: rest =>
    assign name value
    let stopped ← try
        eval fuel tested body
        pure false
      catch e => loopStop e
    if stopped then return
    evalFor fuel tested name rest body

def evalBranches (fuel : Nat) (tested : Bool) (value : Chars) (branches : List (List Word × Command)) :
    Eval Unit := do
  match fuel, branches with
  | 0, _ => throw .endless
  | _, [] => pure ()
  | fuel + 1, (patterns, body) :: rest =>
    let ps ← patterns.mapM (expandPattern (substitute fuel))
    if ps.any (·.accepts value) then eval fuel tested body
    else evalBranches fuel tested value rest

def expandAll (fuel : Nat) (ws : List Word) : Eval (List Chars) := do
  match fuel with
  | 0 => throw .endless
  | fuel + 1 => return (← ws.mapM (expandFields (substitute fuel))).flatten

def substitute (fuel : Nat) (cs : Chars) : Eval Chars := do
  match fuel with
  | 0 => throw .endless
  | fuel + 1 =>
    let (n, text) ← collecting (inSubshell (withExitTrap fuel (evalText fuel false cs)))
    modifyScope ({ · with substituted := n })
    return stripNewlines (text.filter (· ≠ '\x00'))

def evalText (fuel : Nat) (tested : Bool) (cs : Chars) : Eval Unit := do
  match fuel with
  | 0 => throw .endless
  | fuel + 1 => evalScript fuel tested "" cs

/-- Runs the commands of a text line by line, for a command that is named where the text is faulty. -/
def evalScript (fuel : Nat) (tested : Bool) (label : String) (cs : Chars) : Eval Unit := do
  match fuel with
  | 0 => throw .endless
  | fuel + 1 =>
    let (commands, fault) := parseScript cs
    if commands.isEmpty && fault.isNone then setStatus 0
    evalEach fuel tested commands
    match fault with
    | none => pure ()
    | some f =>
      modifyScope ({ · with line := f.line })
      abandon (label.toList ++ "Syntax error: ".toList ++ f.error.message.toList)

def evalEach (fuel : Nat) (tested : Bool) (cs : List Command) : Eval Unit := do
  match fuel, cs with
  | 0, _ => throw .endless
  | _, [] => pure ()
  | fuel + 1, c :: rest =>
    eval fuel tested c
    evalEach fuel tested rest

def evalSimple (fuel : Nat) (assignments : List (String × Word)) (words : List Word)
    (rs : List Redirection) : Eval Unit := do
  match fuel with
  | 0 => throw .endless
  | fuel + 1 =>
    let run := substitute fuel
    modifyScope ({ · with substituted := 0 })
    let errors ← channel? 2
    match ← expandAll fuel words with
    | [] =>
      withRedirections run rs do
        let told ← applyAssignments run false assignments
        if !told.isEmpty then trace errors told
        setStatus (← scope).substituted
    | name :: args =>
      if name = "exec".toList && args.isEmpty then
        let _ ← applyAssignments run false assignments
        setStatus (if ← redirectAll run rs then 0 else 2)
      else
        let outlast := Builtin.isSpecial name
        withRedirections run rs do
          let bindings := (← scope).bindings
          let told ← applyAssignments run (!outlast) assignments
          trace errors (told ++ name :: args)
          setStatus (← evalCommand fuel name args)
          if !outlast && !assignments.isEmpty && name ∉ ["read".toList, "cd".toList] then
            modifyScope ({ · with bindings := bindings })

/-- A command by its words: a function, a built-in command or a program. -/
def evalCommand (fuel : Nat) (name : Chars) (args : List Chars) : Eval Nat := do
  match fuel with
  | 0 => throw .endless
  | fuel + 1 =>
    match (← scope).functions.lookup (String.ofList name) with
    | some body => callFunction fuel body args
    | none =>
      match String.ofList name with
      | "eval" =>
        evalScript fuel false "eval: " (joinWith [' '] args)
        status
      | "." => evalFile fuel args
      | "type" => describeAll fuel args
      | "command" =>
        match args with
        | ['-', 'v'] :: word :: _ => locate fuel word
        | ['-', 'V'] :: words => describeAll fuel words
        | args =>
          match args.dropWhile (· ∈ [['-', 'p'], ['-', '-']]) with
          | [] => return 0
          | word :: rest => runWord fuel word rest
      | "exec" =>
        match args with
        | [] => return 0
        | word :: rest =>
          modifyScope ({ · with traps := [] })
          if (← Utility.program? word).isNone && !isDirectory word then
            complain ("exec: ".toList ++ word ++ ": not found".toList)
            throw (.exit 127)
          throw (.exit (← runProgram fuel word rest))
      | "kill" => sendSignal fuel args
      | _ => runWord fuel name args

def callFunction (fuel : Nat) (body : Command) (args : List Chars) : Eval Nat := do
  match fuel with
  | 0 => throw .endless
  | fuel + 1 =>
    let outer ← scope
    modifyScope ({ · with arguments := args, loops := 0, locals := some [] })
    try eval fuel false body catch e =>
      match e with
      | .leaveFunction => pure ()
      | _ => throw e
    modifyScope fun s ↦
      { Builtin.restoreLocals s with
        arguments := outer.arguments, loops := outer.loops, locals := outer.locals }
    status

def evalFile (fuel : Nat) (args : List Chars) : Eval Nat := do
  match fuel, args with
  | 0, _ => throw .endless
  | _, [] => return 0
  | fuel + 1, path :: _ =>
    if '/' ∉ path then abandon (".: ".toList ++ path ++ ": not found".toList)
    match ← Utility.readFile? path with
    | none => abandon (".: cannot open ".toList ++ path ++ ": No such file".toList)
    | some text =>
      setStatus 0
      try evalText fuel false text catch e =>
        match e with
        | .leaveFunction => pure ()
        | _ => throw e
      status

def locate (fuel : Nat) (word : Chars) : Eval Nat := do
  match fuel with
  | 0 => throw .endless
  | _ + 1 =>
    let isKnown := (Builtin.lookup? word).isSome || isEvaluated word ||
      String.ofList word ∈ reservedWords ||
      ((← scope).functions.lookup (String.ofList word)).isSome
    if isKnown then
      print (word ++ ['\n'])
      return 0
    match ← Utility.program? word with
    | some name =>
      print (placeOf word name ++ ['\n'])
      return 0
    | none => return 127

def describeAll (fuel : Nat) (words : List Chars) : Eval Nat := do
  match fuel, words with
  | 0, _ => throw .endless
  | _, [] => return 0
  | fuel + 1, word :: rest =>
    let name := String.ofList word
    let what? ← if name ∈ reservedWords then do pure (some " is a shell keyword")
      else if ((← scope).functions.lookup name).isSome then do pure (some " is a shell function")
      else if Builtin.countsAsSpecial word then do pure (some " is a special shell builtin")
      else if (Builtin.lookup? word).isSome || isEvaluated word then do
        pure (some " is a shell builtin")
      else do pure ((← Utility.program? word).map fun found ↦
        " is " ++ String.ofList (placeOf word found))
    print (word ++ (what?.getD ": not found").toList ++ ['\n'])
    let n ← describeAll fuel rest
    return if what?.isNone then 127 else n

def runWord (fuel : Nat) (name : Chars) (args : List Chars) : Eval Nat := do
  match fuel with
  | 0 => throw .endless
  | fuel + 1 =>
    match Builtin.lookup? name with
    | some body => guarded name (body args)
    | none => runProgram fuel name args

def runProgram (fuel : Nat) (word : Chars) (args : List Chars) : Eval Nat := do
  match fuel with
  | 0 => throw .endless
  | fuel + 1 =>
    match ← Utility.program? word with
    | none =>
      if isDirectory word then
        complain (word ++ ": Permission denied".toList)
        return 126
      complain (word ++ ": not found".toList)
      return 127
    | some "sh" | some "dash" => launchShell fuel word args
    | some "env" =>
      match args.dropWhile fun a ↦ (Builtin.binding a).2.isSome with
      | [] =>
        inSubshell do
          let _ ← Builtin.exportAll args
          setStatus (← Utility.printenv [])
      | command :: rest =>
        inSubshell do
          let _ ← Builtin.exportAll (args.take (args.length - rest.length - 1))
          setStatus (← runProgram fuel command rest)
    | some "nohup" | some "timeout" =>
      match if word = "timeout".toList then args.drop 1 else args with
      | [] => return 125
      | command :: rest => runProgram fuel command rest
    | some name =>
      match Utility.lookup? name with
      | some body => guardedProgram word (body args)
      | none => return 127

/-- A shell of its own for a text, or for the input. -/
def launchShell (fuel : Nat) (word : Chars) (args : List Chars) : Eval Nat := do
  match fuel with
  | 0 => throw .endless
  | fuel + 1 =>
    let options := (args.takeWhile Utility.isFlag).flatMap (·.drop 1)
    let rest := args.dropWhile Utility.isFlag
    let (body?, rest) ← if 'c' ∈ options then do pure (some (rest.headD []), rest.drop 1)
      else match rest with
        | [] => do pure (some (← Utility.takeInput), [])
        | path :: _ => do pure (← Utility.readFile? path, rest)
    let outer ← scope
    let inner := outer.child (rest.headD word) (rest.drop 1)
    let some body := body?
      | report ("sh: 0: cannot open ".toList ++ rest.headD [] ++ ": No such file".toList)
        return 2
    modifyScope fun _ ↦ { inner with stopsOnFailure := 'e' ∈ options, traces := 'x' ∈ options }
    let n ← try
        withExitTrap fuel (evalText fuel false body)
        status
      catch e =>
        match e with
        | .killed signal =>
          modifyScope fun _ ↦ outer
          Builtin.tellSignal signal
          pure (128 + signal)
        | e => throw e
    modifyScope fun _ ↦ outer
    return n

/-- Sends a signal to this shell. A trap for it runs at once. -/
def sendSignal (fuel : Nat) (args : List Chars) : Eval Nat := do
  match fuel with
  | 0 => throw .endless
  | fuel + 1 =>
    match Builtin.killRequest args with
    | .list words =>
      for word in words do
        match Builtin.signal? word with
        | some (name, n) =>
          print ((if (Text.natural? 10 word).isSome then name.toList else decimal n) ++ ['\n'])
        | none => pure ()
      return 0
    | .unknownSignal name =>
      Builtin.fail "kill".toList ("invalid signal number or name: ".toList ++ name) 2
    | .illegalOption c => Builtin.fail "kill".toList ("Illegal option -".toList ++ [c]) 2
    | .send _ [] =>
      Builtin.fail "kill".toList
        ("Usage: kill [-s sigspec | -signum | -sigspec] [pid | job]... or\n" ++
          "kill -l [exitstatus]").toList 2
    | .send (key, signal) (target :: _) =>
      let process? := Text.natural? 10 target
      let job? := process?.bind (← world).job?
      if process?.isNone && target.head? ≠ some '%' then
        Builtin.fail "kill".toList ("Illegal number: ".toList ++ target) 2
      else if let some job := job? then
        if !Builtin.isHarmless signal then modifyWorld (endJob job signal)
        return 0
      else if target ≠ decimal processId && target ≠ ['0'] then
        Builtin.fail "kill".toList "No such process\n".toList 1
      else if Builtin.isStopping signal then throw .endless
      else if Builtin.isHarmless signal then return 0
      else
        match (← scope).traps.lookup key with
        | some action =>
          if signal = 9 then throw (.killed signal)
          evalText fuel false action
          return 0
        | none => throw (.killed signal)

end

end SelfHealing.Shell
