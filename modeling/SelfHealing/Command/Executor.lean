import SelfHealing.Command.Privilege
import SelfHealing.Command.Transport
import SelfHealing.Net.Interface
import SelfHealing.Task

/-!
Running commands on registered hosts: on this machine where the host is one of its own addresses, and through a
session elsewhere. Any status but zero is a failure.
-/

namespace SelfHealing.Command

open Net Time

structure Options where
  commandTimeout : Option Duration
  connectTimeout : Duration
  streamOutput : Bool
  deriving DecidableEq, Repr

namespace Options

def standard : Options := ⟨some (.ofSeconds 600), .ofSeconds 10, true⟩

end Options

structure Executor (m : Type → Type) where
  registry : Registry
  own : List Address
  transports : Transports m
  options : Options
  sink : Sink m

namespace Executor

variable {m : Type → Type} [Monad m]

def route (e : Executor m) (host : Address) : Route :=
  if isLocal host e.own then .here else .there

def runner (e : Executor m) (host : Address) : Runner m :=
  match e.route host with
  | .here => e.transports.runHere
  | .there => e.transports.runThere

def run (e : Executor m) (t : Target) (command : String) : Task m String := do
  let prepared := t.credential.prepare command
  let sink := if e.options.streamOutput then some e.sink else none
  let output ← Task.call (e.runner t.host t prepared e.options.commandTimeout sink)
  if output.status ≠ 0 then
    throw (.commandFailed t.host prepared output.status output.text)
  return output.text

def execute (e : Executor m) (host : Address) (command : String) : Task m String := do
  e.run (← Task.ofExcept (e.registry.target host)) command

def runEach (e : Executor m) (t : Target) : List String → Task m Unit
  | [] => pure ()
  | command :: rest => do
    if !command.isEmpty then
      let _ ← e.run t command
    e.runEach t rest

def executeAll (e : Executor m) (host : Address) (commands : List String) : Task m Unit := do
  e.runEach (← Task.ofExcept (e.registry.target host)) commands

/-- The output with its lines joined by a separator. Another host has to have written something. -/
def executeToString (e : Executor m) (host : Address) (command separator : String) :
    Task m String := do
  let output ← e.execute host command
  if output.isEmpty && e.route host = .there then
    throw (.emptyOutput host command)
  return Text.joinLines separator output

def ping (e : Executor m) (host : Address) : Task m Unit :=
  match e.route host with
  | .here => pure ()
  | .there => do
    let t ← Task.ofExcept (e.registry.target host)
    Task.call (e.transports.pingThere t)

end Executor

end SelfHealing.Command
