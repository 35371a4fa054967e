import SelfHealing.Data.Record
import SelfHealing.Rule

/-!
Rules as trees of data. Only a rule's name and the workload of a recovery have no default.
-/

namespace SelfHealing

open Data

def Workload.ofName? : String → Option Workload
  | "pod" => some .pod
  | "service" => some .service
  | _ => none

def Workload.decode? : Decoder Workload := fun v ↦ do
  ofName? (← v.caseName?)

namespace Recovery

def workloadField : Field := ⟨["type"], 0⟩
def actionField : Field := ⟨["action"], 1⟩
def enabledField : Field := ⟨["enable", "enabled"], 2⟩

def decode? : Decoder Recovery := fun v ↦ do
  let r ← Record.ofValue? 3 v
  some
    { workload := ← r.required? workloadField Workload.decode?
      action := ← r.optional? actionField "" Value.asString?
      enabled := ← r.optional? enabledField false Value.asBool? }

def encode (r : Recovery) : Value :=
  .named
    [("type", .string r.workload.name), ("action", .string r.action), ("enable", .bool r.enabled)]

end Recovery

namespace Rule

def nameField : Field := ⟨["name"], 0⟩
def expressionField : Field := ⟨["expr"], 1⟩
def recoveryField : Field := ⟨["recover"], 2⟩

def decode? : Decoder Rule := fun v ↦ do
  let r ← Record.ofValue? 3 v
  some
    { name := ← r.required? nameField Value.asString?
      expression := ← r.optional? expressionField "" Value.asString?
      recovery := ← r.optional? recoveryField none (Value.asOption? Recovery.decode?) }

def encode (r : Rule) : Value :=
  .named <|
    [("name", .string r.name), ("expr", .string r.expression)] ++
      r.recovery.toList.map fun recovery ↦ ("recover", recovery.encode)

end Rule

end SelfHealing
