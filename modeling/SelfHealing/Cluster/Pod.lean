import SelfHealing.Query

/-!
Pods as the cluster holds them, and what a search for a host needs of them.
-/

namespace SelfHealing

open Data

/-- What the cluster tells of a pod and nothing here asks for: the other members of its metadata, of its specification
and of its status. The last two may be missing altogether. -/
structure PodRest where
  metadata : List (Key × Value)
  spec : Option (List (Key × Value))
  status : Option (List (Key × Value))
  deriving Repr

def PodRest.empty : PodRest := ⟨[], none, none⟩

structure Pod where
  name : Option String
  space : Option String
  node : Option String
  hostText : Option String
  annotations : Option Labels
  version : Option String
  rest : PodRest
  deriving Repr

structure PodSummary where
  name : String
  space : String
  node : String
  hostText : String
  deriving DecidableEq, Repr

def Pod.summary (p : Pod) : PodSummary :=
  ⟨p.name.getD "", p.space.getD "", p.node.getD "", p.hostText.getD ""⟩

def Pod.annotate (p : Pod) (name value : String) : Pod :=
  { p with annotations := some (setLabel name value (p.annotations.getD [])) }

end SelfHealing
