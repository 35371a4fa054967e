import SelfHealing.Configuration.Encoding
import SelfHealing.Error
import SelfHealing.Yaml.Decoding
import SelfHealing.Yaml.Parser

/-!
Reading the configuration file. The rules are read as they stand; everything else is resolved to values first, so a
number is no text there.
-/

namespace SelfHealing

open Data Yaml

def Recovery.read (d : Document) (depth : Nat) (n : Node) : Decoding Recovery := do
  let (_, entries) ← d.fields depth n
  return {
    workload := ← required entries workloadField fun n ↦ do
      Decoding.ofOption (Workload.ofName? (← d.caseName n))
    action := ← defaulted entries actionField "" d.text
    enabled := ← defaulted entries enabledField false d.truth }

def Rule.read (d : Document) (depth : Nat) (n : Node) : Decoding Rule := do
  let (depth, entries) ← d.fields depth n
  return {
    name := ← required entries nameField d.text
    expression := ← defaulted entries expressionField "" d.text
    recovery := ← defaulted entries recoveryField none (d.optional (Recovery.read d depth)) }

namespace Configuration

def ofRoot (d : Document) (n : Node) : Decoding Configuration := do
  let (depth, entries) ← d.fields depthLimit n
  let others := entries.filter fun entry ↦ !rulesField.answers (.name entry.1)
  let fields ← others.mapM fun (name, n) ↦ do return (Key.name name, ← d.value depth n)
  return {
    registry := ← Decoding.ofOption (Registry.ofFields? fields)
    rules := ← defaulted entries rulesField [] (d.list depth (Rule.read d)) }

def ofDocument? (d : Document) : Option Configuration :=
  match d.root with
  | none => some .empty
  | some n => ((ofRoot d n).run 0).map Prod.fst

def parse (s : String) : Except Error Configuration :=
  match (Yaml.parse? s).bind ofDocument? with
  | some c => .ok c
  | none => .error (.configuration "Failed to parse config: the document is no configuration")

end Configuration

end SelfHealing
