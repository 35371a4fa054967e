import SelfHealing.Command.Transport

/-!
Hosts that answer commands with prepared replies and note what they were asked.
-/

namespace SelfHealing.Simulation

open Command Net Time

inductive Reply
  | finished (output : Output)
  | disconnected (message : String)
  | timedOut
  deriving DecidableEq, Repr

inductive RemoteCall
  | run (target : Target) (command : String) (limit : Option Duration) (streamed : Bool)
  | ping (target : Target)
  deriving DecidableEq, Repr

structure PingFailure where
  host : Address
  reply : Reply
  deriving DecidableEq, Repr

structure RemoteHosts where
  replies : List Reply
  pingFailures : List PingFailure
  calls : List RemoteCall
  deriving Repr

namespace RemoteHosts

def Reply.result (host : Address) (command : String) (limit : Option Duration) :
    Reply → Except Error Output
  | .finished output => .ok output
  | .disconnected message => .error (.connection host message)
  | .timedOut => .error (.commandTimeout host command (limit.getD .zero))

def plainReply : Reply := .finished ⟨0, "ok\n"⟩

def run (t : Target) (command : String) (limit : Option Duration) (streamed : Bool) :
    StateM RemoteHosts (Except Error Output × List String) := fun r ↦
  let r := { r with calls := r.calls ++ [.run t command limit streamed] }
  match t.credential.portFor t.host with
  | .error e => ((.error e, []), r)
  | .ok _ =>
    let reply := r.replies.headD plainReply
    let lines := match reply with
      | .finished output => Text.lines output.text
      | _ => []
    ((Reply.result t.host command limit reply, lines), { r with replies := r.replies.tail })

def ping (t : Target) : StateM RemoteHosts (Except Error Unit) := fun r ↦
  let result := match r.pingFailures.find? (·.host = t.host) with
    | some failure => (Reply.result t.host "" none failure.reply).map fun _ ↦ ()
    | none => .ok ()
  (result, { r with calls := r.calls ++ [.ping t] })

end RemoteHosts

end SelfHealing.Simulation
