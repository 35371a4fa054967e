import SelfHealing.Data.Record
import SelfHealing.Yaml.Resolution

/-!
Reading typed data from a document. Collections may be nested so deep, and aliases followed so often for the size of
the document, and no more. Where a text is wanted any scalar is one, whatever it would stand for elsewhere.
-/

namespace SelfHealing.Yaml

open Data

def depthLimit : Nat := 128

/-- Reading counts the aliases that it follows. -/
abbrev Decoding := StateT Nat Option

def Decoding.ofOption {α : Type} : Option α → Decoding α
  | some a => pure a
  | none => failure

/-- Each mark of a document allows for so many aliases followed. -/
def followsPerMark : Nat := 100

namespace Document

def follow (d : Document) : Node → Decoding Node
  | .reference id => do
    let count := (← get) + 1
    set count
    if followsPerMark * d.marks < count then failure else Decoding.ofOption (d.anchor? id)
  | n => pure n

end Document

/-- A field's name as a key: a text, or a number that counts the fields. -/
def keyOf? : Value → Option Key
  | .string s => some (.name s)
  | .number (.natural n) => some (.position n)
  | _ => none

/-- An object of the entries; with a key that cannot name a field nothing can be read from it. -/
def objectOf (entries : List (Value × Value)) : Value :=
  match entries.mapM fun (k, v) ↦ (keyOf? k).map ((·, v)) with
  | some fields => .object fields
  | none => .unreadable

/-- A node as a value, each scalar resolved. -/
def Document.value (d : Document) : Nat → Node → Decoding Value
  | 0, n => do
    match ← d.follow n with
    | .scalar s => Decoding.ofOption s.value?
    | _ => failure
  | depth + 1, n => do
    match ← d.follow n with
    | .scalar s => Decoding.ofOption s.value?
    | .sequence tag items =>
      if (caseTag? tag).isSome then failure
      return .array (← items.mapM (d.value depth))
    | .mapping tag entries =>
      if (caseTag? tag).isSome then failure
      return objectOf (← entries.mapM fun (k, v) ↦ do return (← d.value depth k, ← d.value depth v))
    | .reference _ => failure

/-- A scalar that says nothing, not even by a tag. -/
def Scalar.isVoid (s : Scalar) : Bool := s.text.isEmpty && s.tag.isNone

namespace Document

def text (d : Document) (n : Node) : Decoding String := do
  match ← d.follow n with
  | .scalar s => return s.text
  | _ => failure

def truth (d : Document) (n : Node) : Decoding Bool := do
  match ← d.follow n with
  | .scalar s =>
    if s.style = .plain || (s.style = .literal && s.tag = some (standardTag "bool")) then
      Decoding.ofOption (bool? s.text)
    else failure
  | _ => failure

def isAbsent (s : Scalar) : Decoding Bool := do
  if s.style ≠ .plain then return false
  match s.tag with
  | none => return s.text.isEmpty || isNull s.text
  | some tag =>
    if tag ≠ standardTag "null" then return false
    else if isNull s.text then return true
    else failure

def optional {α : Type} (d : Document) (decode : Node → Decoding α) (n : Node) :
    Decoding (Option α) := do
  let n ← d.follow n
  match n with
  | .scalar s => if ← isAbsent s then return none else return some (← decode n)
  | _ => return some (← decode n)

/-- The name of a case without content: a tag of its own over nothing, or the text of a scalar. -/
def caseName (d : Document) (n : Node) : Decoding String := do
  match ← d.follow n with
  | .scalar s =>
    match caseTag? s.tag with
    | some name =>
      if s.style = .plain && (s.text.isEmpty || isNull s.text) then return name else failure
    | none => return s.text
  | _ => failure

def list {α : Type} (d : Document) (depth : Nat) (decode : Nat → Node → Decoding α) (n : Node) :
    Decoding (List α) := do
  match ← d.follow n with
  | .sequence _ items =>
    match depth with
    | 0 => failure
    | depth + 1 => items.mapM (decode depth)
  | .scalar s => if s.isVoid then return [] else failure
  | _ => failure

/-- The entries of a mapping by the texts of their keys, and the depth inside. -/
def fields (d : Document) (depth : Nat) (n : Node) : Decoding (Nat × List (String × Node)) := do
  match ← d.follow n with
  | .mapping _ entries =>
    match depth with
    | 0 => failure
    | depth + 1 => return (depth, ← entries.mapM fun (k, v) ↦ do return (← d.text k, v))
  | .scalar s => if s.isVoid then return (depth, []) else failure
  | _ => failure

end Document

/-- The value of a field, if it is there; it may not be there twice. -/
def field? (entries : List (String × Node)) (f : Field) : Decoding (Option Node) :=
  match entries.filter fun entry ↦ f.answers (.name entry.1) with
  | [] => pure none
  | [(_, n)] => pure (some n)
  | _ => failure

def required {α : Type} (entries : List (String × Node)) (f : Field) (decode : Node → Decoding α) :
    Decoding α := do
  decode (← Decoding.ofOption (← field? entries f))

def defaulted {α : Type} (entries : List (String × Node)) (f : Field) (absent : α)
    (decode : Node → Decoding α) : Decoding α := do
  match ← field? entries f with
  | some n => decode n
  | none => return absent

end SelfHealing.Yaml
