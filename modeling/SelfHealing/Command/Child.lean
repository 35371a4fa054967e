import SelfHealing.Command.Transport
import SelfHealing.Time.Script

/-!
A child process as its parent sees it. The parent reads two pipes line by line, in whatever order their lines become
ready, and waits for the exit. A reader that loses a race keeps the part of a line that it has read.
-/

namespace SelfHealing.Command

open Net Text Time

inductive Pipe
  | out
  | err
  deriving DecidableEq, Repr

/-- What a reader holds of an unfinished line, what waits to be read, whether the writers are gone, and whether
the parent still reads. -/
structure PipeState where
  held : Octets
  waiting : Octets
  ended : Bool
  isOpen : Bool
  deriving DecidableEq, Repr

namespace PipeState

def fresh : PipeState := ⟨[], [], false, true⟩

def arrive (bytes : Octets) (p : PipeState) : PipeState :=
  if p.ended then p else { p with waiting := p.waiting ++ bytes }

def finish (p : PipeState) : PipeState := { p with ended := true }

/-- The reader takes what comes before a newline and has to give way. -/
def shift (p : PipeState) : PipeState :=
  { p with
    held := p.held ++ p.waiting.takeWhile (· ≠ newline)
    waiting := p.waiting.dropWhile (· ≠ newline) }

/-- A line that is ready: up to a newline, or all that is left once the writers are gone. A read that finds nothing
more closes the pipe. -/
def take? (p : PipeState) : Option (Octets × PipeState) :=
  if !p.isOpen then none
  else if newline ∈ p.waiting then
    let (line, rest) := takeLine p.waiting
    some (p.held ++ line, { p with held := [], waiting := rest })
  else if p.ended then
    some (p.held ++ p.waiting, ⟨[], [], true, !p.waiting.isEmpty⟩)
  else none

end PipeState

/-- Both pipes, and the lines taken from them. -/
structure Collector where
  out : PipeState
  err : PipeState
  transcript : Transcript
  deriving DecidableEq, Repr

inductive Move
  | arrive (pipe : Pipe) (bytes : Octets)
  | finish (pipe : Pipe)
  | shift (pipe : Pipe)
  | take (pipe : Pipe)
  deriving DecidableEq, Repr

namespace Collector

def start : Collector := ⟨.fresh, .fresh, .empty⟩

def pipe (c : Collector) : Pipe → PipeState
  | .out => c.out
  | .err => c.err

def setPipe (c : Collector) (state : PipeState) : Pipe → Collector
  | .out => { c with out := state }
  | .err => { c with err := state }

def step (c : Collector) : Move → Collector
  | .arrive p bytes => c.setPipe ((c.pipe p).arrive bytes) p
  | .finish p => c.setPipe (c.pipe p).finish p
  | .shift p => c.setPipe (c.pipe p).shift p
  | .take p =>
    match (c.pipe p).take? with
    | some (line, state) => { c.setPipe state p with transcript := c.transcript.push line }
    | none => c

def run (c : Collector) (moves : List Move) : Collector := moves.foldl step c

def reads (c : Collector) (p : Pipe) : List Move :=
  List.replicate ((c.pipe p).waiting.length + 2) (.take p)

def drain (c : Collector) : Collector :=
  c.run (c.reads .out ++ c.reads .err)

def isDone (c : Collector) : Bool := !c.out.isOpen && !c.err.isOpen

end Collector

/-- What becomes of a child; a child ended by a signal has no exit status. -/
inductive ChildEvent
  | wrote (pipe : Pipe) (bytes : Octets)
  | closed (pipe : Pipe)
  | exited (status : Option Nat)
  deriving DecidableEq, Repr

structure Child where
  collector : Collector
  status : Option Int
  deriving Repr

inductive ChildResult
  | finished (output : Output)
  | timedOut
  | endless
  deriving DecidableEq, Repr

namespace Child

def start : Child := ⟨.start, none⟩

def signalled : Int := -1

def observe (c : Child) : ChildEvent → Child
  | .wrote p bytes => { c with collector := (c.collector.step (.arrive p bytes)).drain }
  | .closed p => { c with collector := (c.collector.step (.finish p)).drain }
  | .exited status => { c with status := some ((status.map Int.ofNat).getD signalled) }

def output? (c : Child) : Option Output :=
  match c.status with
  | some status => if c.collector.isDone then some ⟨status, c.collector.transcript.text⟩ else none
  | none => none

/-- The result within a limit, and the lines shown until then. -/
def collect (c : Child) (limit : Option Duration) (elapsed : Duration) :
    List (Timed ChildEvent) → ChildResult × List String
  | [] =>
    let result := match c.output?, limit with
      | some output, _ => .finished output
      | none, some _ => .timedOut
      | none, none => .endless
    (result, c.collector.transcript.lines)
  | t :: rest =>
    let now := elapsed + t.delay
    match c.output? with
    | some output => (.finished output, c.collector.transcript.lines)
    | none =>
      if limit.any (· < now) then (.timedOut, c.collector.transcript.lines)
      else collect (c.observe t.item) limit now rest

end Child

/-- A process takes no text that holds a NUL. -/
def startFailure? (command : String) (environment : List Binding) : Option String :=
  let texts := command :: environment.flatMap fun b ↦ [b.key, b.value]
  if texts.any fun s ↦ '\x00' ∈ s.toList then
    some ("failed to start command '" ++ command ++ "': nul byte found in provided data")
  else none

/-- A command and variables become a child, whose life is told in advance. -/
abbrev Launch := String → List Binding → List (Timed ChildEvent)

/-- The runner of this machine. A child without an end and without a limit is waited for forever. -/
def localRunner {m : Type → Type} [Monad m] (launch : Launch) : Runner (OptionT m) :=
  fun t command limit sink ↦ do
    match startFailure? command t.environment with
    | some reason => return .error (.connection t.host reason)
    | none =>
      let (result, lines) := Child.start.collect limit .zero (launch command t.environment)
      emit sink t.host lines
      match result with
      | .finished output => return .ok output
      | .timedOut => return .error (.commandTimeout t.host command (limit.getD .zero))
      | .endless => failure

end SelfHealing.Command
