import SelfHealing.Registry
import SelfHealing.Rule

/-!
The configuration file: the host registry and the rules.
-/

namespace SelfHealing

structure Configuration where
  registry : Registry
  rules : List Rule
  deriving DecidableEq, Repr

namespace Configuration

def empty : Configuration := ⟨.empty, []⟩

instance : Inhabited Configuration := ⟨empty⟩

end Configuration

end SelfHealing
