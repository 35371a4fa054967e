import SelfHealing.Query.Encoding
import SelfHealing.Recovery.Pass
import SelfHealing.Rule.Encoding

/-!
Rule results as trees of data.
-/

namespace SelfHealing.Recovery.RuleResult

open Data

def ruleField : Field := ⟨["rule"], 0⟩
def resultField : Field := ⟨["result"], 1⟩

def decode? : Decoder RuleResult := fun v ↦ do
  let r ← Record.ofValue? 2 v
  some
    { rule := ← r.required? ruleField Rule.decode?
      result := ← r.required? resultField QueryResult.decode? }

end SelfHealing.Recovery.RuleResult
