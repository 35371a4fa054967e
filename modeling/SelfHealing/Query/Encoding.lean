import SelfHealing.Data.Record
import SelfHealing.Query

/-!
Query results as trees of data. A result names its type beside its content, the two in either order, or is an array
of the two. Content that comes before its type is held until the type is known, and held content has to be readable.
-/

namespace SelfHealing

open Data

namespace Point

def decode? : Decoder Point := fun v ↦ do
  let (time, value) ← Value.asPair? Value.asDouble? Value.asString? v
  some ⟨time, value⟩

def encode (p : Point) : Value :=
  .array [.number (.real p.time), .string p.value]

end Point

def decodeLabels? : Decoder Labels := fun v ↦ do
  let entries ← entries? Value.asString? v
  some (entries.foldl (fun labels (name, value) ↦ setLabel name value labels) [])

def encodeLabels (labels : Labels) : Value :=
  .named (labels.map fun (name, value) ↦ (name, .string value))

namespace Sample

def labelsField : Field := ⟨["metric"], 0⟩
def pointField : Field := ⟨["value"], 1⟩

def decode? : Decoder Sample := fun v ↦ do
  let r ← Record.ofValue? 2 v
  some
    { labels := ← r.required? labelsField decodeLabels?
      point := ← r.required? pointField Point.decode? }

def encode (s : Sample) : Value :=
  .named [("metric", encodeLabels s.labels), ("value", s.point.encode)]

end Sample

namespace Series

def labelsField : Field := ⟨["metric"], 0⟩
def pointsField : Field := ⟨["values"], 1⟩

def decode? : Decoder Series := fun v ↦ do
  let r ← Record.ofValue? 2 v
  some
    { labels := ← r.required? labelsField decodeLabels?
      points := ← r.optional? pointsField [] (Value.asList? Point.decode?) }

def encode (s : Series) : Value :=
  .named [("metric", encodeLabels s.labels), ("values", .array (s.points.map Point.encode))]

end Series

namespace QueryResult

def typeField : Field := ⟨["resultType"], 0⟩
def contentField : Field := ⟨["result"], 1⟩

def decodeContent? (kind : String) : Decoder QueryResult := fun v ↦
  match kind with
  | "vector" => (Value.asList? Sample.decode? v).map vector
  | "matrix" => (Value.asList? Series.decode? v).map matrix
  | "scalar" => (Point.decode? v).map scalar
  | "string" => (Point.decode? v).map text
  | _ => none

/-- Whether the content comes first among the fields that count. -/
def contentFirst (fields : List (Key × Value)) : Bool :=
  match fields.find? fun entry ↦ typeField.answers entry.1 || contentField.answers entry.1 with
  | some (key, _) => contentField.answers key
  | none => false

def decode? : Decoder QueryResult := fun v ↦
  match v with
  | .object fields => do
    let r := Record.named fields
    let kind ← r.required? typeField Value.caseName?
    let content ← r.required? contentField some
    if contentFirst fields && !content.readable then none else decodeContent? kind content
  | .array [kind, content] => do decodeContent? (← kind.caseName?) content
  | _ => none

def encodeContent : QueryResult → Value
  | vector samples => .array (samples.map Sample.encode)
  | matrix series => .array (series.map Series.encode)
  | scalar point => point.encode
  | text point => point.encode

def encode (r : QueryResult) : Value :=
  .named [("resultType", .string r.kind), ("result", r.encodeContent)]

end QueryResult

end SelfHealing
