import SelfHealing.Error
import SelfHealing.Query
import SelfHealing.Rule

/-!
Anomalies: one record for each sample or series that a rule matched, in their order.
-/

namespace SelfHealing

structure PodAnomaly where
  name : String
  space : String
  instanceName : String
  deriving DecidableEq, Repr

/-- A faulty service of a host, which is found through the pod that reports it. -/
structure ServiceAnomaly where
  service : String
  pod : String
  instanceName : String
  deriving DecidableEq, Repr

inductive Anomaly
  | pod (anomaly : PodAnomaly)
  | service (anomaly : ServiceAnomaly)
  deriving DecidableEq, Repr

namespace Anomaly

def workload : Anomaly → Workload
  | pod _ => .pod
  | service _ => .service

def podName : Anomaly → String
  | pod p => p.name
  | service s => s.pod

def describe : Anomaly → String
  | pod p => s!"pod {p.space}/{p.name}"
  | service s => s!"service {s.service} (pod {s.pod})"

def ofLabels (workload : Workload) (labels : Labels) : Anomaly :=
  match workload with
  | .pod => pod ⟨label labels "pod", label labels "namespace", label labels "instance"⟩
  | .service => service ⟨label labels "name", label labels "pod", label labels "instance"⟩

end Anomaly

def classify (workload : Workload) (result : QueryResult) : Except Error (List Anomaly) :=
  match result.labelSets? with
  | some sets => .ok (sets.map (Anomaly.ofLabels workload))
  | none => .error (.unsupportedResult result.kind)

end SelfHealing
