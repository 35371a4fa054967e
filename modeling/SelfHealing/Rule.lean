/-!
Monitoring rules, and the recovery that a rule may ask for.
-/

namespace SelfHealing

inductive Workload
  | pod
  | service
  deriving DecidableEq, Repr

def Workload.name : Workload → String
  | pod => "pod"
  | service => "service"

structure Recovery where
  workload : Workload
  action : String
  enabled : Bool
  deriving DecidableEq, Repr

structure Rule where
  name : String
  expression : String
  recovery : Option Recovery
  deriving DecidableEq, Repr

def Rule.enabledRecovery? (r : Rule) : Option Recovery :=
  r.recovery.filter (·.enabled)

end SelfHealing
