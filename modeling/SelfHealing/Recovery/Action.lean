/-!
What a rule's action means for a pod and for a service. Text that is no keyword is a command of its own.
-/

namespace SelfHealing

inductive PodAction
  | delete
  | restart
  | shell (command : String)
  deriving DecidableEq, Repr

def PodAction.parse : String → PodAction
  | "delete" => delete
  | "restart" => restart
  | other => shell other

inductive Verb
  | start
  | stop
  | restart
  | enable
  | disable
  deriving DecidableEq, Repr

namespace Verb

def all : List Verb := [start, stop, restart, enable, disable]

def name : Verb → String
  | start => "start"
  | stop => "stop"
  | restart => "restart"
  | enable => "enable"
  | disable => "disable"

def ofName? (s : String) : Option Verb :=
  all.find? (·.name = s)

end Verb

inductive ServiceAction
  | lifecycle (verb : Verb)
  | shell (command : String)
  deriving DecidableEq, Repr

namespace ServiceAction

def parse (action : String) : ServiceAction :=
  match Verb.ofName? action with
  | some verb => lifecycle verb
  | none => shell action

def command (service : String) : ServiceAction → String
  | lifecycle verb => s!"systemctl {verb.name} {service}"
  | shell command => command

end ServiceAction

end SelfHealing
