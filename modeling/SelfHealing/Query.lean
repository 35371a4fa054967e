import SelfHealing.Data.Value

/-!
Results of a metrics query: samples or series with their labels, or a single value.
-/

namespace SelfHealing

open Data

/-- A point in time and the value then, as text. -/
structure Point where
  time : Double
  value : String
  deriving DecidableEq, Repr

/-- Labels in the order of their names, each name once. -/
abbrev Labels := List (String × String)

/-- A label added or given a new value. -/
def setLabel (name value : String) : Labels → Labels
  | [] => [(name, value)]
  | (other, old) :: rest =>
    if name = other then (name, value) :: rest
    else if name < other then (name, value) :: (other, old) :: rest
    else (other, old) :: setLabel name value rest

def label (labels : Labels) (name : String) : String :=
  (labels.lookup name).getD ""

structure Sample where
  labels : Labels
  point : Point
  deriving DecidableEq, Repr

structure Series where
  labels : Labels
  points : List Point
  deriving DecidableEq, Repr

inductive QueryResult
  | vector (samples : List Sample)
  | matrix (series : List Series)
  | scalar (point : Point)
  | text (point : Point)
  deriving DecidableEq, Repr

namespace QueryResult

def kind : QueryResult → String
  | vector _ => "vector"
  | matrix _ => "matrix"
  | scalar _ => "scalar"
  | text _ => "string"

/-- The labels of every sample or series in their order; none for a single value. -/
def labelSets? : QueryResult → Option (List Labels)
  | vector samples => some (samples.map (·.labels))
  | matrix series => some (series.map (·.labels))
  | _ => none

end QueryResult

end SelfHealing
