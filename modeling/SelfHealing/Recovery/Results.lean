import SelfHealing.Json.Reader
import SelfHealing.Query.Encoding
import SelfHealing.Recovery.Pass

/-!
The results of a query round, each under the name of the rule that it belongs to.
-/

namespace SelfHealing.Recovery

open Data

abbrev Results := List (String × QueryResult)

namespace Results

def ofEntries : List (String × QueryResult) → Results
  | [] => []
  | (name, result) :: rest =>
    if rest.any (·.1 = name) then ofEntries rest else (name, result) :: ofEntries rest

def decode? : Decoder Results := fun v ↦ (entries? QueryResult.decode? v).map ofEntries

def parse? (s : String) : Option Results := (Json.parse? s).bind decode?

def erase (name : String) (results : Results) : Results := results.filter (·.1 ≠ name)

/-- The rules that have a result, in their order. A result is given away once: of rules with one name
the first takes it. -/
def join : List Rule → Results → List RuleResult
  | [], _ => []
  | rule :: rest, results =>
    match results.lookup rule.name with
    | some result => ⟨rule, result⟩ :: join rest (erase rule.name results)
    | none => join rest results

end Results

end SelfHealing.Recovery
