import SelfHealing.Data.Value

/-!
Reading typed data from a tree. A record is an object, or an array of its fields in their order; a field may be
written once only, and fields that the record does not declare are skipped.
-/

namespace SelfHealing.Data

abbrev Decoder (α : Type) := Value → Option α

namespace Value

def asString? : Decoder String
  | string s => some s
  | _ => none

def asBool? : Decoder Bool
  | bool b => some b
  | _ => none

def asDouble? : Decoder Double
  | number n => some n.toDouble
  | _ => none

def asNatural? : Decoder Nat
  | number (.natural n) => some n
  | _ => none

def asOption? {α : Type} (decode : Decoder α) : Decoder (Option α)
  | null => some none
  | v => (decode v).map some

def asList? {α : Type} (decode : Decoder α) : Decoder (List α)
  | array items => items.mapM decode
  | _ => none

def asPair? {α β : Type} (first : Decoder α) (second : Decoder β) : Decoder (α × β)
  | array [a, b] => do some (← first a, ← second b)
  | _ => none

/-- The name of a case without content: a text, or an object with that name as its only key and null
as its value. -/
def caseName? : Decoder String
  | string s => some s
  | object [(.name s, null)] => some s
  | _ => none

end Value

/-- A field that a record declares: the names it goes by and its place. -/
structure Field where
  names : List String
  position : Nat
  deriving DecidableEq, Repr

def Field.answers (f : Field) : Key → Bool
  | .name s => s ∈ f.names
  | .position n => n = f.position

inductive Record
  | named (fields : List (Key × Value))
  | listed (items : List Value)

namespace Record

/-- A record of `count` declared fields; an array with more items is none. -/
def ofValue? (count : Nat) : Decoder Record
  | .object fields => some (named fields)
  | .array items => if items.length ≤ count then some (listed items) else none
  | _ => none

/-- The value of a field, if it is there; `none` outside when it is there twice. -/
def field? (r : Record) (f : Field) : Option (Option Value) :=
  match r with
  | named fields =>
    match fields.filter fun entry ↦ f.answers entry.1 with
    | [] => some none
    | [(_, v)] => some (some v)
    | _ => none
  | listed items => some items[f.position]?

def required? {α : Type} (r : Record) (f : Field) (decode : Decoder α) : Option α := do
  let v ← (← r.field? f)
  decode v

def optional? {α : Type} (r : Record) (f : Field) (absent : α) (decode : Decoder α) : Option α := do
  match ← r.field? f with
  | none => some absent
  | some v => decode v

end Record

/-- The entries of an object whose keys are all names. -/
def entries? {α : Type} (decode : Decoder α) : Decoder (List (String × α))
  | .object fields => fields.mapM fun
    | (.name s, v) => do some (s, ← decode v)
    | (.position _, _) => none
  | _ => none

end SelfHealing.Data
