import SelfHealing.Ssh.Transport
import SelfHealing.Time.Script

/-!
A server that answers sessions as it is told, and the network with nothing else on it.
-/

namespace SelfHealing.Simulation

open Net Ssh Text Time

/-- What the server writes for a command, each piece a while after the one before, and what it does then. -/
inductive ServerEnding
  | exited (report : ExitReport)
  | unclosed
  | hanging
  | disconnecting
  deriving DecidableEq, Repr

structure ServerReply where
  output : List (Timed Octets)
  ending : ServerEnding
  deriving Repr

/-- A private key on this machine, with the passphrase that unlocks it; without one any will do. -/
structure KeyFile where
  path : String
  name : String
  passphrase : Option String
  deriving DecidableEq, Repr

structure Server where
  address : Address
  port : Nat
  users : List (String × String)
  keys : List String
  accepted : List String
  replies : List (String × ServerReply)
  refusesSession : Bool
  refusesExec : Bool
  isSilent : Bool
  speaksSsh : Bool
  deriving Repr

inductive ServerEvent
  | password (user text : String) (accepted : Bool)
  | publicKey (user name : String) (accepted : Bool)
  | session (accepted : Bool)
  | variable_ (key value : String) (accepted : Bool)
  | exec (command : String) (accepted : Bool)
  deriving DecidableEq, Repr

namespace ServerReply

/-- A command that has no reply of its own says that all is well. -/
def standard : ServerReply := ⟨[⟨.zero, encode "ok\n"⟩], .exited (.status 0)⟩

/-- The answers to reads; a piece without octets only takes its time. -/
def answers (waited : Duration) (ending : ServerEnding) : List (Timed Octets) → List (Answer Octets)
  | [] =>
    match ending with
    | .exited _ | .unclosed => [⟨some waited, .ok []⟩]
    | .hanging => [.never]
    | .disconnecting => [⟨some waited, .error "transport read"⟩]
  | t :: rest =>
    if t.item.isEmpty then answers (waited + t.delay) ending rest
    else ⟨some (waited + t.delay), .ok t.item⟩ :: answers .zero ending rest

def reaction (r : ServerReply) : Reaction :=
  { output := answers .zero r.ending r.output
    exit := match r.ending with
      | .exited report => report
      | _ => .missing }

end ServerReply

namespace Server

def reply (s : Server) (command : String) : ServerReply :=
  (s.replies.lookup command).getD .standard

def ofAccepted (accepted : Bool) (reason : String) : Answer Unit :=
  if accepted then .now () else .refused reason

def unlocked? (files : List KeyFile) (path passphrase : String) : Option KeyFile :=
  files.find? fun f ↦ f.path = path && f.passphrase.all (· = passphrase)

def handshakeTime : Duration := .ofMillis 2

def event? (s : Server) (files : List KeyFile) : Request → Option ServerEvent
  | .authenticate user (.password text) => some (.password user text ((user, text) ∈ s.users))
  | .authenticate user (.keyFile path passphrase) =>
    (unlocked? files path passphrase).map fun f ↦ .publicKey user f.name (f.name ∈ s.keys)
  | .openChannel => if s.refusesSession then some (.session false) else none
  | .setVariable key value => some (.variable_ key value (key ∈ s.accepted))
  | .exec command => if '\x00' ∈ command.toList then none else some (.exec command !s.refusesExec)
  | _ => none

def ServerEvent.accepted : ServerEvent → Bool
  | .password _ _ a | .publicKey _ _ a | .session a | .variable_ _ _ a | .exec _ a => a

def answer (s : Server) (files : List KeyFile) : List Request → Answer Unit
  | .handshake :: _ =>
    if s.isSilent then .never
    else if s.speaksSsh then ⟨some handshakeTime, .ok ()⟩
    else .refused "no banner"
  | .awaitClose :: earlier =>
    match earlier.findSome? fun r ↦ match r with
        | .exec command => some command
        | _ => none with
    | some command => if (s.reply command).ending = .unclosed then .never else .now ()
    | none => .now ()
  | r :: _ =>
    match s.event? files r, r with
    | some e, _ => ofAccepted (ServerEvent.accepted e) "refused"
    -- What the library does not send comes back at once.
    | none, .authenticate _ (.keyFile ..) => .refused "unable to open the key file"
    | none, .exec _ => .refused "nul byte in command"
    | none, _ => .now ()
  | [] => .now ()

def peer (s : Server) (files : List KeyFile) : Peer :=
  { session := .ok ()
    answer := s.answer files
    confirms := true
    reaction := fun command ↦ (s.reply command).reaction
    pause := fun _ ↦ .zero }

end Server

def unreachable : Peer :=
  { session := .ok ()
    answer := fun _ ↦ .refused "Network is unreachable (os error 101)"
    confirms := true
    reaction := fun _ ↦ ⟨[], .missing⟩
    pause := fun _ ↦ .zero }

/-- At most one server, the keys of this machine, and the server's notes. -/
structure Wire where
  server : Option Server
  files : List KeyFile
  events : List ServerEvent
  deriving Repr

namespace Wire

/-- The other end for a target: the server at its own address and port. -/
def peerFor (w : Wire) (t : Target) : Peer :=
  match w.server, t.credential.portFor t.host with
  | some s, .ok port => if s.address = t.host && s.port = port then s.peer w.files else unreachable
  | _, _ => unreachable

def record (requests : List Request) (w : Wire) : Wire :=
  match w.server with
  | some s => { w with events := w.events ++ requests.filterMap (s.event? w.files) }
  | none => w

end Wire

end SelfHealing.Simulation
