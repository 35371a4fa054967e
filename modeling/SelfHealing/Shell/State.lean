import SelfHealing.Command.Child
import SelfHealing.Shell.Syntax

/-!
The state of a shell: what each subshell has for itself, and the world that all of them share. A character of shell
text stands for one octet.
-/

namespace SelfHealing.Shell

open SelfHealing.Command (Pipe)

abbrev Chars := List Char

def ofOctets (bytes : Text.Octets) : Chars := bytes.map fun b ↦ Char.ofNat b.toNat

def toOctets (cs : Chars) : Text.Octets := cs.map fun c ↦ c.toNat.toUInt8

def ofString (s : String) : Chars := ofOctets (Text.encode s)

inductive Channel
  | pipe (p : Pipe)
  | buffer (index : Nat)
  | file (path : Chars)
  | nowhere
  deriving DecidableEq, Repr

structure Variable where
  name : String
  value : Chars
  exported : Bool
  deriving Repr

structure Scope where
  bindings : List Variable
  functions : List (String × Command)
  name : Chars
  arguments : List Chars
  status : Nat
  directory : Chars
  mask : Nat
  constants : List String
  locals : Option (List (String × Option Variable))
  stopsOnFailure : Bool
  refusesUnset : Bool
  traces : Bool
  traps : List (String × Chars)
  channels : List (Nat × Channel)
  loops : Nat
  line : Nat
  substituted : Nat
  deriving Repr

structure Write where
  time : Nat
  job : Nat
  pipe : Pipe
  text : Chars
  deriving Repr

/-- A background command: its process, how it ended or will end, and when. -/
structure Job where
  process : Nat
  status : Nat
  signal : Option Nat
  ended : Nat
  deriving DecidableEq, Repr

/-- What all subshells share. A job of process zero is the shell itself. -/
structure World where
  time : Nat
  job : Nat
  writes : List Write
  lost : Bool
  buffers : List Chars
  files : List (Chars × Chars)
  input : Chars
  jobs : List Job
  deriving Repr

namespace World

def lastJobEnd (w : World) : Nat := w.jobs.foldl (fun t j ↦ max t j.ended) 0

def job? (w : World) (process : Nat) : Option Job := w.jobs.find? (·.process = process)

end World

structure State where
  scope : Scope
  world : World
  deriving Repr

inductive Stop
  | exit (status : Nat)
  | killed (signal : Nat)
  | leaveLoops (count : Nat)
  | nextRound (count : Nat)
  | leaveFunction
  | endless
  deriving DecidableEq, Repr

abbrev Eval := ExceptT Stop (StateM State)

def scope : Eval Scope := return (← get).scope

def modifyScope (f : Scope → Scope) : Eval Unit :=
  modify fun s ↦ { s with scope := f s.scope }

def world : Eval World := return (← get).world

def modifyWorld (f : World → World) : Eval Unit :=
  modify fun s ↦ { s with world := f s.world }

def setStatus (n : Nat) : Eval Unit := modifyScope ({ · with status := n })

def status : Eval Nat := return (← scope).status

/-! Variables. -/

def Scope.valueOf? (s : Scope) (name : String) : Option Chars :=
  (s.bindings.find? (·.name = name)).map (·.value)

def setVariableIn (name : String) (value : Chars) (exported : Bool) :
    List Variable → List Variable
  | [] => [⟨name, value, exported⟩]
  | v :: rest =>
    if v.name = name then ⟨name, value, v.exported || exported⟩ :: rest
    else v :: setVariableIn name value exported rest

def Scope.assign (s : Scope) (name : String) (value : Chars) : Scope :=
  { s with bindings := setVariableIn name value false s.bindings }

def Scope.assignExported (s : Scope) (name : String) (value : Chars) : Scope :=
  { s with bindings := setVariableIn name value true s.bindings }

def Scope.markExported (s : Scope) (name : String) : Scope :=
  s.assignExported name ((s.valueOf? name).getD [])

def Scope.unassign (s : Scope) (name : String) : Scope :=
  { s with bindings := s.bindings.filter (·.name ≠ name) }

def valueOf? (name : String) : Eval (Option Chars) := return (← scope).valueOf? name

/-! Writing. -/

def appendAt (index : Nat) (text : Chars) (buffers : List Chars) : List Chars :=
  buffers.modify index (· ++ text)

def fileText (files : List (Chars × Chars)) (path : Chars) : Option Chars :=
  files.lookup path

def putFile (path text : Chars) (files : List (Chars × Chars)) : List (Chars × Chars) :=
  (path, text) :: files.filter (·.1 ≠ path)

def World.write (w : World) (text : Chars) : Channel → World
  | .pipe p => { w with writes := ⟨w.time, w.job, p, text⟩ :: w.writes }
  | .buffer index => { w with buffers := appendAt index text w.buffers }
  | .file path => { w with files := putFile path ((fileText w.files path).getD [] ++ text) w.files }
  | .nowhere => w

def channel? (fd : Nat) : Eval (Option Channel) := return (← scope).channels.lookup fd

def write (fd : Nat) (text : Chars) : Eval Unit := do
  if text.isEmpty then return
  match ← channel? fd with
  | some c => modifyWorld (·.write text c)
  | none => modifyWorld ({ · with lost := true })

def print (text : Chars) : Eval Unit := write 1 text

def setChannel (fd : Nat) (c : Channel) : Eval Unit :=
  modifyScope fun s ↦ { s with channels := (fd, c) :: s.channels.filter (·.1 ≠ fd) }

def closeChannel (fd : Nat) : Eval Unit :=
  modifyScope fun s ↦ { s with channels := s.channels.filter (·.1 ≠ fd) }

def decimal (n : Nat) : Chars := Text.digits 10 n

def complain (text : Chars) : Eval Unit := do
  let s ← scope
  write 2 (s.name ++ ": ".toList ++ decimal s.line ++ ": ".toList ++ text ++ ['\n'])

def report (text : Chars) : Eval Unit := write 2 (text ++ ['\n'])

def abandon {α : Type} (text : Chars) : Eval α := do
  complain text
  throw (.exit 2)

def isConstant (name : String) : Eval Bool := return name ∈ (← scope).constants

def readOnly (name : String) : Chars := name.toList ++ ": is read only".toList

def assign (name : String) (value : Chars) : Eval Unit := do
  if ← isConstant name then abandon (readOnly name)
  modifyScope (·.assign name value)

def pass (nanos : Nat) : Eval Unit := modifyWorld fun w ↦ { w with time := w.time + nanos }

/-! Subshells. -/

/-- Runs with a copy of the scope; leaving the shell only leaves the copy. -/
def inSubshell (body : Eval Unit) : Eval Nat := fun s ↦
  let inner := { s with scope := { s.scope with traps := [] } }
  match body inner with
  | (.ok (), t) => (.ok t.scope.status, { t with scope := s.scope })
  | (.error (.exit n), t) => (.ok n, { t with scope := s.scope })
  | (.error .endless, t) => (.error .endless, { t with scope := s.scope })
  | (.error (.killed n), t) => (.error (.killed n), { t with scope := s.scope })
  | (.error _, t) => (.ok t.scope.status, { t with scope := s.scope })

def collecting (body : Eval Nat) : Eval (Nat × Chars) := do
  let index := (← world).buffers.length
  modifyWorld fun w ↦ { w with buffers := w.buffers ++ [[]] }
  let before ← scope
  setChannel 1 (.buffer index)
  let n ← body
  modifyScope fun s ↦ { s with channels := before.channels }
  let w ← world
  modifyWorld fun w ↦ { w with buffers := w.buffers.take index }
  return (n, (w.buffers[index]?).getD [])

def withInput {α : Type} (text : Chars) (body : Eval α) : Eval α := do
  let before := (← world).input
  modifyWorld ({ · with input := text })
  let a ← try body catch e =>
    modifyWorld ({ · with input := before })
    throw e
  modifyWorld ({ · with input := before })
  return a

end SelfHealing.Shell
