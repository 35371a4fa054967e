import SelfHealing.Command.Output
import SelfHealing.Registry
import SelfHealing.Time.Duration

/-!
Ways of running a command on a host.
-/

namespace SelfHealing.Command

open Net Time

/-- Takes lines of output with the host they come from. -/
abbrev Sink (m : Type → Type) := Address → String → m Unit

abbrev Runner (m : Type → Type) :=
  Target → String → Option Duration → Option (Sink m) → m (Except Error Output)

structure Transports (m : Type → Type) where
  runHere : Runner m
  runThere : Runner m
  pingThere : Target → m (Except Error Unit)

inductive Route
  | here
  | there
  deriving DecidableEq, Repr

def emit {m : Type → Type} [Monad m] (sink : Option (Sink m)) (host : Address) :
    List String → m Unit
  | [] => pure ()
  | line :: rest => do
    match sink with
    | some sink => sink host line
    | none => pure ()
    emit sink host rest

end SelfHealing.Command
