import SelfHealing.Configuration
import SelfHealing.Registry.Encoding
import SelfHealing.Rule.Encoding

/-!
Configurations as trees of data. The registry's fields stand beside the rules, and all that is not the rules is
held until the registry is read, so it has to be readable.
-/

namespace SelfHealing

open Data

namespace Registry

def hostsField : Field := ⟨["hosts"], 0⟩
def credentialField : Field := ⟨["ssh"], 1⟩

def ofFields? (fields : List (Key × Value)) : Option Registry := do
  let r := Record.named fields
  some
    { hosts := ← r.optional? hostsField [] (Value.asList? HostEntry.decode?)
      credential := ← r.optional? credentialField .empty Credential.decode? }

def fields (r : Registry) : List (String × Value) :=
  [("hosts", .array (r.hosts.map HostEntry.encode)), ("ssh", r.credential.encode)]

end Registry

namespace Configuration

def rulesField : Field := ⟨["rules"], 0⟩

def decode? : Decoder Configuration := fun v ↦
  match v with
  | .object fields => do
    let others := fields.filter fun entry ↦ !rulesField.answers entry.1
    if !Value.fieldsReadable others then none
    else
      some
        { registry := ← Registry.ofFields? others
          rules := ← (Record.named fields).optional? rulesField [] (Value.asList? Rule.decode?) }
  | _ => none

def encode (c : Configuration) : Value :=
  .named (c.registry.fields ++ [("rules", .array (c.rules.map Rule.encode))])

end Configuration

end SelfHealing
