import SelfHealing.Anomaly
import SelfHealing.Data.Record
import SelfHealing.Rule.Encoding

/-!
Anomalies as trees of data. An anomaly names its kind among its own fields, or is an array of the kind and the
fields. All of it is held until the kind is known, so all of it has to be readable.
-/

namespace SelfHealing

open Data

namespace PodAnomaly

def nameField : Field := ⟨["name"], 0⟩
def spaceField : Field := ⟨["namespace"], 1⟩
def instanceField : Field := ⟨["instance"], 2⟩

def decode? : Decoder PodAnomaly := fun v ↦ do
  let r ← Record.ofValue? 3 v
  some
    { name := ← r.required? nameField Value.asString?
      space := ← r.required? spaceField Value.asString?
      instanceName := ← r.required? instanceField Value.asString? }

def fields (p : PodAnomaly) : List (String × Value) :=
  [("name", .string p.name), ("namespace", .string p.space), ("instance", .string p.instanceName)]

end PodAnomaly

namespace ServiceAnomaly

def serviceField : Field := ⟨["service_name"], 0⟩
def podField : Field := ⟨["pod_name"], 1⟩
def instanceField : Field := ⟨["instance"], 2⟩

def decode? : Decoder ServiceAnomaly := fun v ↦ do
  let r ← Record.ofValue? 3 v
  some
    { service := ← r.required? serviceField Value.asString?
      pod := ← r.required? podField Value.asString?
      instanceName := ← r.required? instanceField Value.asString? }

def fields (s : ServiceAnomaly) : List (String × Value) :=
  [("service_name", .string s.service), ("pod_name", .string s.pod),
    ("instance", .string s.instanceName)]

end ServiceAnomaly

namespace Anomaly

def kindField : Field := ⟨["kind"], 0⟩

def decodeAs? (workload : Workload) : Decoder Anomaly := fun v ↦
  match workload with
  | .pod => (PodAnomaly.decode? v).map pod
  | .service => (ServiceAnomaly.decode? v).map service

def decode? : Decoder Anomaly := fun v ↦
  if !v.readable then none
  else
    match v with
    | .object fields => do
      let kind ← (Record.named fields).required? kindField Value.asString?
      decodeAs? (← Workload.ofName? kind) (.object (fields.filter fun entry ↦ !kindField.answers entry.1))
    | .array (kind :: items) => do
      decodeAs? (← Workload.ofName? (← kind.asString?)) (.array items)
    | _ => none

def encode : Anomaly → Value
  | pod p => .named (("kind", .string Workload.pod.name) :: p.fields)
  | service s => .named (("kind", .string Workload.service.name) :: s.fields)

end Anomaly

end SelfHealing
