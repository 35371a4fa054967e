import SelfHealing.Command.Transport
import SelfHealing.Ssh.Session

/-!
Commands on other hosts, one session each. The limit of a command counts from before the connection, and bounds each
wait of the session by what is left of it; connecting has a timeout of its own.
-/

namespace SelfHealing.Ssh

open Command Net Text Time

/-- Milliseconds as a session takes them, at most what 32 bits hold. -/
def sessionMillis (d : Duration) : Nat := min d.wholeMillis 0xFFFFFFFF

structure Deadline where
  limit : Option Duration
  started : Instant
  deriving DecidableEq, Repr

namespace Deadline

/-- The timeout for what comes next, none inside it if there is no limit; `none` once less than a millisecond
is left. -/
def nextTimeout? (d : Deadline) (now : Instant) : Option (Option Duration) :=
  match d.limit with
  | none => some none
  | some limit => do
    let left ← limit.sub? (now.since d.started)
    let n := sessionMillis left
    if 0 < n then some (some (.ofMillis n)) else none

def isOver (d : Deadline) (now : Instant) : Bool := (d.nextTimeout? now).isNone

end Deadline

/-- The timeout while connecting and when closing, at least a millisecond. -/
def connectPatience (connectTimeout : Duration) : Duration :=
  .ofMillis (max (sessionMillis connectTimeout) 1)

def channelFailed (host : Address) (reason : String) : Error :=
  .connection host s!"ssh channel error: {reason}"

def dial (p : Peer) (connectTimeout : Duration) (host : Address) (port : Nat) : Talk Unit := do
  let refuse := fun reason ↦ Talk.fail (.connection host s!"failed to connect {host.withPort port}: {reason}")
  match ← Talk.converse p (.connect host port) (some connectTimeout) p.answer with
  | .ok () => if connectTimeout.nanos = 0 then refuse "cannot set a 0 duration timeout" else return ()
  | .error reason => refuse reason

/-- The way to log in: a key file if one is named, else a password. -/
def login? (c : Credential) : Option Login :=
  if !c.keyPath.isEmpty then some (.keyFile c.keyPath c.keyPassphrase)
  else if !c.password.isEmpty then some (.password c.password)
  else none

def Login.failed : Login → String
  | keyFile .. => "public key auth failed"
  | password _ => "password auth failed"

def connect (p : Peer) (connectTimeout : Duration) (t : Target) : Talk Unit := do
  match t.credential.portFor t.host with
  | .error e => Talk.fail e
  | .ok port =>
    dial p connectTimeout t.host port
    Talk.ofExcept <| p.session.mapError fun reason ↦
      .connection t.host s!"failed to create ssh session: {reason}"
    Talk.setTimeout (some (connectPatience connectTimeout))
    Talk.demand p .handshake fun reason ↦ .connection t.host s!"ssh handshake failed: {reason}"
    let user := t.credential.effectiveUser
    match login? t.credential with
    | none =>
      Talk.fail (.invalidCredential t.host "neither password nor private key configured")
    | some login =>
      Talk.demand p (.authenticate user login) fun reason ↦ .connection t.host s!"{login.failed}: {reason}"
      if !p.confirms then Talk.fail (.connection t.host s!"authentication failed for user {user}")

def arm (p : Peer) (host : Address) (d : Deadline) : Talk Unit := do
  match d.nextTimeout? (← Talk.clock p) with
  | some timeout => Talk.setTimeout timeout
  | none => Talk.fail (.connection host "deadline exceeded")

def pushLine (line : Octets) : Talk Unit :=
  modify fun s ↦ { s with transcript := s.transcript.push line }

def setVariables (p : Peer) : List Binding → Talk Unit
  | [] => pure ()
  | b :: rest => do
    let _ ← Talk.ask p (.setVariable b.key b.value)
    setVariables p rest

/-- The end of the output. A last line without a newline is read like the others, and then the end once more. -/
def finishLines (p : Peer) (host : Address) (d : Deadline) (held : Octets) : Talk Unit := do
  if !held.isEmpty then
    pushLine held
    arm p host d
    let _ ← Talk.take p (.now [])

/-- Reads lines to the end of the output. `held` is the line under way, and `ready` what has been received after it.
The timeout is set anew for each line, not for each read. -/
def readLines (p : Peer) (host : Address) (d : Deadline) (held ready : Octets)
    (output : List (Answer Octets)) : Talk Unit := do
  if h : newline ∈ ready then
    have := length_takeLine_snd_lt_of_mem h
    pushLine (held ++ (takeLine ready).1)
    arm p host d
    readLines p host d [] (takeLine ready).2 output
  else
    let held := held ++ ready
    match output with
    | [] =>
      let _ ← Talk.take p (.now [])
      finishLines p host d held
    | answer :: more =>
      match ← Talk.take p answer with
      | .error reason => Talk.fail (.connection host s!"failed to read output: {reason}")
      | .ok bytes =>
        if bytes.isEmpty then finishLines p host d held else readLines p host d held bytes more
termination_by (output.length, ready.length)

def exec (p : Peer) (t : Target) (command : String) (d : Deadline) : Talk Output := do
  arm p t.host d
  Talk.demand p .openChannel (channelFailed t.host)
  setVariables p t.environment
  Talk.demand p (.exec command) (channelFailed t.host)
  let reaction := p.reaction command
  arm p t.host d
  readLines p t.host d [] [] reaction.output
  arm p t.host d
  Talk.demand p .awaitClose (channelFailed t.host)
  return ⟨reaction.exit.code, (← get).transcript.text⟩

/-- A failure after the deadline gives way to another error. -/
def judge (p : Peer) (d : Deadline) (late : Error) : Except Error Output → Talk (Except Error Output)
  | .ok output => return .ok output
  | .error e => return .error (if d.isOver (← Talk.clock p) then late else e)

def sayGoodbye (p : Peer) (connectTimeout : Duration) : Talk (Except String Unit) := do
  Talk.setTimeout (some (connectPatience connectTimeout))
  Talk.ask p .disconnect

/-- Connects, runs a command and disconnects. Any failure after the limit is a timeout. -/
def run (p : Peer) (connectTimeout : Duration) (t : Target) (command : String)
    (limit : Option Duration) : Talk Output := do
  let d : Deadline := ⟨limit, ← Talk.clock p⟩
  connect p connectTimeout t
  let result ← Talk.attempt (exec p t command d)
  let result ← judge p d (.commandTimeout t.host command (limit.getD .zero)) result
  let _ ← sayGoodbye p connectTimeout
  Talk.ofExcept result

def ping (p : Peer) (connectTimeout : Duration) (t : Target) : Talk Unit := do
  connect p connectTimeout t
  match ← Talk.ask p .disconnect with
  | .ok () => return ()
  | .error reason => Talk.fail (.connection t.host s!"failed to close ssh session: {reason}")

structure Network (m : Type → Type) where
  peer : Target → m Peer
  record : List Request → m Unit

namespace Network

variable {m : Type → Type} [Monad m]

def carry {α : Type} (n : Network m) (t : Target) (talk : Peer → Talk α) :
    OptionT m (Except Error α × List String) := do
  let p ← n.peer t
  let (result, s) := (talk p).run.run Session.start
  n.record s.requests.reverse
  match result with
  | .ok a => return (.ok a, s.transcript.lines)
  | .error (.error e) => return (.error e, s.transcript.lines)
  | .error .endless => failure

def runner (n : Network m) (connectTimeout : Duration) : Runner (OptionT m) :=
  fun t command limit sink ↦ do
    let (result, lines) ← n.carry t fun p ↦ run p connectTimeout t command limit
    emit sink t.host lines
    return result

def pinger (n : Network m) (connectTimeout : Duration) (t : Target) :
    OptionT m (Except Error Unit) := do
  let (result, _) ← n.carry t fun p ↦ ping p connectTimeout t
  return result

end Network

end SelfHealing.Ssh
