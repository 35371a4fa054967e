import SelfHealing.Command.Output
import SelfHealing.Error

/-!
A session with another host as a sequence of requests. Every request waits for its answer for as long as the timeout
allows that was set last; none is set at first.
-/

namespace SelfHealing.Ssh

open Command Net Text Time

inductive Login
  | password (text : String)
  | keyFile (path passphrase : String)
  deriving DecidableEq, Repr

inductive Request
  | connect (host : Address) (port : Nat)
  | handshake
  | authenticate (user : String) (login : Login)
  | openChannel
  | setVariable (key value : String)
  | exec (command : String)
  | read
  | awaitClose
  | disconnect
  deriving DecidableEq, Repr

/-- An answer and the time until it comes, which may be never. -/
structure Answer (α : Type) where
  delay : Option Duration
  result : Except String α
  deriving Repr

namespace Answer

variable {α : Type}

def now (a : α) : Answer α := ⟨some .zero, .ok a⟩

def refused (reason : String) : Answer α := ⟨some .zero, .error reason⟩

def never : Answer α := ⟨none, .error ""⟩

def timedOut : String := "timed out"

/-- What comes within a time, and after how long; nothing comes of an endless wait. -/
def within? (a : Answer α) (patience : Option Duration) : Option (Duration × Except String α) :=
  match a.delay, patience with
  | some d, none => some (d, a.result)
  | some d, some limit => some (if d ≤ limit then (d, a.result) else (limit, .error timedOut))
  | none, some limit => some (limit, .error timedOut)
  | none, none => none

end Answer

inductive ExitReport
  | status (code : UInt32)
  | signal
  | missing
  deriving DecidableEq, Repr

/-- The status that is taken from a report: the code as a signed number, and zero when there is none. -/
def ExitReport.code : ExitReport → Int
  | status code => code.toInt32.toInt
  | signal | missing => 0

/-- What a server does with a command: its answers to the reads, after which the output is over, and the end. -/
structure Reaction where
  output : List (Answer Octets)
  exit : ExitReport
  deriving Repr

/-- The other end of a session, and the library that leads there. An answer may look at all requests so far, the latest
first. There may be no session to begin with, for a reason, and an accepted login may still leave one that does not count
as logged in. Between one step of this end and the next there may be a pause. -/
structure Peer where
  session : Except String Unit
  answer : List Request → Answer Unit
  confirms : Bool
  reaction : String → Reaction
  pause : Nat → Duration

/-- A request as it went: when it was made, for how long it could take, and what came of it and after how long.
Nothing comes of an endless wait. -/
structure Exchange where
  request : Request
  began : Instant
  patience : Option Duration
  reply : Option (Duration × Except String Unit)
  deriving Repr

/-- The latest exchange comes first. -/
structure Session where
  now : Instant
  steps : Nat
  timeout : Option Duration
  exchanges : List Exchange
  transcript : Transcript
  deriving Repr

namespace Session

def start : Session := ⟨⟨0⟩, 0, none, [], .empty⟩

def requests (s : Session) : List Request := s.exchanges.map (·.request)

end Session

inductive Failure
  | error (e : Error)
  | endless
  deriving DecidableEq, Repr

abbrev Talk := ExceptT Failure (StateM Session)

namespace Talk

def fail {α : Type} (e : Error) : Talk α := throw (.error e)

def attempt {α : Type} (x : Talk α) : Talk (Except Error α) := fun s ↦
  match x s with
  | (.ok a, s) => (.ok (.ok a), s)
  | (.error (.error e), s) => (.ok (.error e), s)
  | (.error .endless, s) => (.error .endless, s)

def ofExcept {α : Type} : Except Error α → Talk α
  | .ok a => return a
  | .error e => fail e

def clock (p : Peer) : Talk Instant := do
  let s ← get
  let now := s.now.after (p.pause s.steps)
  set { s with now := now, steps := s.steps + 1 }
  return now

/-- The time that every later request may take; `none` for any. -/
def setTimeout (timeout : Option Duration) : Talk Unit :=
  modify fun s ↦ { s with timeout := timeout }

/-- Makes a request and waits for its answer, which may look at all requests so far. -/
def converse {α : Type} (p : Peer) (r : Request) (patience : Option Duration)
    (answer : List Request → Answer α) : Talk (Except String α) := do
  let began ← clock p
  let s ← get
  let reply := (answer (r :: s.requests)).within? patience
  let exchange : Exchange := ⟨r, began, patience, reply.map fun (d, result) ↦ (d, result.map fun _ ↦ ())⟩
  set { s with exchanges := exchange :: s.exchanges }
  match reply with
  | none => throw .endless
  | some (d, result) =>
    modify fun s ↦ { s with now := s.now.after d }
    return result

/-- Makes a request under the timeout that was set last. -/
def ask (p : Peer) (r : Request) : Talk (Except String Unit) := do
  converse p r (← get).timeout p.answer

def demand (p : Peer) (r : Request) (explain : String → Error) : Talk Unit := do
  match ← ask p r with
  | .ok () => return ()
  | .error reason => fail (explain reason)

def take (p : Peer) (a : Answer Octets) : Talk (Except String Octets) := do
  converse p .read (← get).timeout fun _ ↦ a

end Talk

end SelfHealing.Ssh
