/-!
Trees of data as a document holds them. A part of a document that is well formed and still has no value — a number
out of range, a string with half of a surrogate pair, a container nested too deep — is `unreadable`: it may be
skipped, not read.
-/

namespace SelfHealing.Data

structure Double where
  bits : UInt64
  deriving DecidableEq, Repr

def Double.ofFloat (x : Float) : Double := ⟨x.toBits⟩

inductive Number
  | natural (n : Nat)
  | negative (n : Int)
  | real (x : Double)
  deriving DecidableEq, Repr

/-- The number as a double; a whole number is rounded to the nearest one, ties to even. -/
def Number.toDouble : Number → Double
  | natural n => .ofFloat (Float.ofNat n)
  | negative n => .ofFloat (Float.ofInt n)
  | real x => x

/-- What names a field: its name, or its place among the fields that a record declares. -/
inductive Key
  | name (s : String)
  | position (n : Nat)
  deriving DecidableEq, Repr

inductive Value
  | null
  | bool (b : Bool)
  | number (n : Number)
  | string (s : String)
  | array (items : List Value)
  | object (fields : List (Key × Value))
  | unreadable
  deriving Repr, Inhabited

namespace Value

mutual

/-- Nothing in the value is unreadable. -/
def readable : Value → Bool
  | unreadable => false
  | array items => allReadable items
  | object fields => fieldsReadable fields
  | _ => true

def allReadable : List Value → Bool
  | [] => true
  | v :: rest => v.readable && allReadable rest

def fieldsReadable : List (Key × Value) → Bool
  | [] => true
  | (_, v) :: rest => v.readable && fieldsReadable rest

end

def natural (n : Nat) : Value := number (.natural n)

def integer : Int → Value
  | .ofNat n => number (.natural n)
  | n => number (.negative n)

def named (fields : List (String × Value)) : Value :=
  object (fields.map fun (name, v) ↦ (.name name, v))

/-- The member of an object, the last one where a key is repeated. -/
def get? (v : Value) (key : String) : Option Value :=
  match v with
  | object fields => (fields.reverse.find? fun field ↦ field.1 = .name key).map Prod.snd
  | _ => none

end Value

end SelfHealing.Data
