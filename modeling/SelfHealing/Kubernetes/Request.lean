import SelfHealing.Kubernetes.Object
import SelfHealing.Net.Uri
import SelfHealing.Text.Utf8

/-!
Requests to the server of a cluster. Names go into the path as they are, and have to be fit for it; the values of the
query are encoded as forms are.
-/

namespace SelfHealing.Kubernetes

open Text

inductive Method
  | get
  | put
  | delete
  deriving DecidableEq, Repr

def Method.name : Method → String
  | get => "GET"
  | put => "PUT"
  | delete => "DELETE"

/-- The target is a path with a query. -/
structure Request where
  method : Method
  target : String
  body : Option Data.Value
  deriving Repr

def upperDigit (d : Nat) : Char := (lowerDigit d).toUpper

def isFormChar (c : Char) : Bool := c.isAlphanum || c ∈ ['*', '-', '.', '_']

def encodeFormOctet (b : UInt8) : List Char :=
  let c := Char.ofNat b.toNat
  if b < 0x80 && isFormChar c then [c]
  else if c = ' ' then ['+']
  else ['%', upperDigit (b.toNat / 16), upperDigit (b.toNat % 16)]

/-- A value as a form holds it: blanks become plus signs, and octets other than letters, digits and a few signs are
written in hexadecimal. -/
def encodeForm (s : String) : String :=
  String.ofList ((encode s).flatMap encodeFormOctet)

def Request.isValid (r : Request) : Bool := Net.isTarget r.target.toList

def Request.path (r : Request) : String :=
  String.ofList (r.target.toList.takeWhile fun c ↦ c ≠ '?' && c ≠ '#')

/-- The parameters of a query, their values still encoded. -/
def Request.parameters (r : Request) : List (String × String) :=
  match (((r.target.splitOn "#").headD "").splitOn "?") with
  | _ :: rest@(_ :: _) =>
    ("?".intercalate rest).splitOn "&" |>.filterMap fun part ↦
      match part.splitOn "=" with
      | key :: value@(_ :: _) => some (key, "=".intercalate value)
      | _ => none
  | _ => []

namespace Target

def collection (space : Option String) : String :=
  match space with
  | some space => s!"/api/v1/namespaces/{space}/pods"
  | none => "/api/v1/pods"

def one (space name : String) : String := s!"{collection (some space)}/{name}?"

def query (fields : List (String × String)) : String :=
  String.join (fields.map fun (key, value) ↦ s!"&{key}={encodeForm value}")

end Target

namespace Request

def list (space : Option String) : Request :=
  ⟨.get, Target.collection space ++ "?", none⟩

def pageSize : Nat := 500

def watchSeconds : Nat := 290

def page (space selector : String) (continuation : Option String) : Request :=
  let more := match continuation with
    | some token => [("continue", token)]
    | none => []
  ⟨.get, Target.collection (some space) ++ "?" ++ Target.query
    ([("fieldSelector", selector), ("limit", toString pageSize)] ++ more), none⟩

def follow (space selector version : String) : Request :=
  ⟨.get, Target.collection (some space) ++ "?" ++ Target.query
    [("watch", "true"), ("timeoutSeconds", toString watchSeconds), ("fieldSelector", selector),
      ("allowWatchBookmarks", "true"), ("resourceVersion", version)], none⟩

def read (space name : String) : Request := ⟨.get, Target.one space name, none⟩

def replace (space name : String) (pod : Pod) : Request := ⟨.put, Target.one space name, some (encodePod pod)⟩

def remove (space name : String) : Request := ⟨.delete, Target.one space name, none⟩

end Request

end SelfHealing.Kubernetes
