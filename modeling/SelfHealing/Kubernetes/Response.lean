import SelfHealing.Json.Reader
import SelfHealing.Kubernetes.Object
import SelfHealing.Text.Line

/-!
Responses of the server of a cluster. A status from 400 on is a failure, whatever the body says; else the body has to
hold what was asked for.
-/

namespace SelfHealing.Kubernetes

open Data

structure Response where
  status : Nat
  body : String
  deriving DecidableEq, Repr

abbrev Answer := Except String Response

namespace Response

def isFailure (r : Response) : Bool := 400 ≤ r.status && r.status < 600

def failureReason (r : Response) : String :=
  match (Json.parse? r.body).bind decodeFailure? with
  | some report => s!"ApiError: {report.message} ({report.code})"
  | none => s!"ApiError: {r.body} ({r.status})"

def value (r : Response) : Except String Value :=
  if r.isFailure then .error r.failureReason
  else
    match Json.read r.body with
    | .ok v => .ok v
    | .error _ => .error "Error deserializing response: no JSON"

def decodeWith {α : Type} (decode : Decoder α) (r : Response) : Except String α := do
  match decode (← r.value) with
  | some a => return a
  | none => throw "Error deserializing response: unexpected value"

def pod (r : Response) : Except String Pod := r.decodeWith decodePod?

def page (r : Response) : Except String Page := r.decodeWith decodePage?

/-- A deletion is answered with a report or with the pod. -/
def deletion (r : Response) : Except String Unit :=
  r.decodeWith fun v ↦
    if (get? v "kind").bind Value.asString? = some "Status" then if isStatus v then some () else none
    else (decodePod? v).map fun _ ↦ ()

/-- A line of a watch. One that ends too early is passed over. -/
def change? (line : String) : Option (Except String Change) :=
  match Json.read line with
  | .error .endsEarly => none
  | .error .malformed => some (.error "Error parsing a watch event: no JSON")
  | .ok v =>
    match decodeChange? v, decodeFailure? v with
    | some c, _ => some (.ok c)
    | none, some report => some (.error s!"ApiError: {report.message} ({report.code})")
    | none, none => some (.error "Error parsing a watch event: unexpected value")

def changes (r : Response) : List (Except String Change) :=
  (Text.lines r.body).filterMap change?

end Response

end SelfHealing.Kubernetes
