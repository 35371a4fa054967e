import SelfHealing.Cluster.Pod
import SelfHealing.Query.Encoding

/-!
The objects that the server of a cluster sends, and the pods that are sent to it. A pod has to have the shape that its
schema tells, also in the fields that nothing here asks for, and those are sent back as they came.
-/

namespace SelfHealing.Kubernetes

open Data

inductive Schema
  | text
  | integer
  | boolean
  | list (item : Schema)
  | table (value : Schema)
  | object (fields : List (String × Schema))
  deriving Repr

namespace Schema

def isInteger : Value → Bool
  | .number (.natural _) | .number (.negative _) => true
  | _ => false

def isNull : Value → Bool
  | .null => true
  | _ => false

def keyed (name : String) (fields : List (Key × Value)) : List Value :=
  fields.filterMap fun (key, v) ↦ if key = .name name then some v else none

mutual

def accepts : Schema → Value → Bool
  | text, v => v.asString?.isSome
  | integer, v => isInteger v
  | boolean, v => v.asBool?.isSome
  | list item, v =>
    match v with
    | .array items => items.all item.accepts
    | _ => false
  | table value, v =>
    match v with
    | .object fields => fields.all fun entry ↦ value.accepts entry.2
    | _ => false
  | object known, v =>
    match v with
    | .object fields => acceptsFields known fields
    | _ => false

/-- A field may be missing or null. -/
def acceptsFields : List (String × Schema) → List (Key × Value) → Bool
  | [], _ => true
  | (name, s) :: rest, fields =>
    (keyed name fields).all (fun v ↦ isNull v || s.accepts v) && acceptsFields rest fields

end

def texts (names : List String) : List (String × Schema) := names.map (·, text)

def integers (names : List String) : List (String × Schema) := names.map (·, integer)

def booleans (names : List String) : List (String × Schema) := names.map (·, boolean)

def metadata : Schema :=
  object <|
    texts ["name", "generateName", "namespace", "selfLink", "uid", "resourceVersion",
      "creationTimestamp", "deletionTimestamp"] ++
    integers ["generation", "deletionGracePeriodSeconds"] ++
    [("labels", table text), ("annotations", table text), ("finalizers", list text),
      ("ownerReferences", list (object (texts ["apiVersion", "kind", "name", "uid"] ++
        booleans ["controller", "blockOwnerDeletion"])))]

def container : Schema :=
  object <|
    texts ["name", "image", "workingDir", "imagePullPolicy", "terminationMessagePath"] ++
    booleans ["stdin", "stdinOnce", "tty"] ++
    [("command", list text), ("args", list text), ("env", list (object (texts ["name", "value"]))),
      ("ports", list (object (texts ["name", "protocol", "hostIP"] ++
        integers ["containerPort", "hostPort"])))]

def spec : Schema :=
  object <|
    texts ["nodeName", "serviceAccountName", "serviceAccount", "restartPolicy", "dnsPolicy",
      "schedulerName", "hostname", "subdomain", "priorityClassName", "preemptionPolicy"] ++
    integers ["activeDeadlineSeconds", "terminationGracePeriodSeconds", "priority"] ++
    booleans ["hostNetwork", "hostPID", "hostIPC", "automountServiceAccountToken",
      "enableServiceLinks", "setHostnameAsFQDN", "shareProcessNamespace"] ++
    [("nodeSelector", table text), ("containers", list container),
      ("initContainers", list container), ("volumes", list (object (texts ["name"])))]

def status : Schema :=
  object <|
    texts ["hostIP", "podIP", "phase", "message", "reason", "nominatedNodeName", "qosClass",
      "startTime"] ++
    [("podIPs", list (object (texts ["ip"]))), ("hostIPs", list (object (texts ["ip"]))),
      ("conditions", list (object (texts ["type", "status", "reason", "message"]))),
      ("containerStatuses", list (object (texts ["name", "image", "imageID"] ++
        integers ["restartCount"] ++ booleans ["ready", "started"])))]

def pod : Schema := object [("metadata", metadata), ("spec", spec), ("status", status)]

end Schema

/-- The value of a field, the last one if there are several; a null counts as missing. -/
def get? (v : Value) (name : String) : Option Value :=
  (v.get? name).filter (!Schema.isNull ·)

def memberAt? (v : Value) (part name : String) : Option Value := (get? v part).bind (get? · name)

def textAt? (v : Value) (part name : String) : Option String := (memberAt? v part name).bind Value.asString?

/-- An object may say what it is, and then has to be right. -/
def isTyped (name expected : String) (v : Value) : Bool :=
  match v with
  | .object fields => (Schema.keyed name fields).all fun v ↦ v.asString? = some expected
  | _ => false

def annotation? : Key × Value → Option (String × String)
  | (.name name, .string value) => some (name, value)
  | _ => none

def annotationsOf? (v : Value) : Option Labels := do
  match ← memberAt? v "metadata" "annotations" with
  | .object fields =>
    some <| (fields.filterMap annotation?).foldl (fun labels (name, value) ↦ setLabel name value labels) []
  | _ => none

/-- The members of an object, without those that have no value. -/
def members (fields : List (String × Option Value)) : List (Key × Value) :=
  fields.filterMap fun (name, v) ↦ v.map (.name name, ·)

def ownMetadata (p : Pod) : List (String × Option Value) :=
  [("name", p.name.map .string), ("namespace", p.space.map .string),
    ("annotations", p.annotations.map encodeLabels), ("resourceVersion", p.version.map .string)]

def ownSpec (p : Pod) : List (String × Option Value) := [("nodeName", p.node.map .string)]

def ownStatus (p : Pod) : List (String × Option Value) := [("hostIP", p.hostText.map .string)]

/-- What is left of a part of an object without the fields of some names; `none` without the part. -/
def restAt? (v : Value) (part : String) (names : List String) : Option (List (Key × Value)) :=
  match get? v part with
  | some (.object fields) => some (fields.filter fun entry ↦ entry.1 ∉ names.map Key.name)
  | _ => none

def decodePod? : Decoder Pod := fun v ↦
  if v.readable && Schema.pod.accepts v && isTyped "apiVersion" "v1" v && isTyped "kind" "Pod" v then
    some
      { name := textAt? v "metadata" "name"
        space := textAt? v "metadata" "namespace"
        node := textAt? v "spec" "nodeName"
        hostText := textAt? v "status" "hostIP"
        annotations := annotationsOf? v
        version := textAt? v "metadata" "resourceVersion"
        rest :=
          { metadata := (restAt? v "metadata" ["name", "namespace", "annotations", "resourceVersion"]).getD []
            spec := restAt? v "spec" ["nodeName"]
            status := restAt? v "status" ["hostIP"] } }
  else none

/-- A part of a pod, of which there is none if nothing is to be told of it. -/
def encodePart (rest : Option (List (Key × Value))) (own : List (String × Option Value)) : Option Value :=
  match rest, members own with
  | none, [] => none
  | _, told => some (.object (rest.getD [] ++ told))

def encodePod (p : Pod) : Value :=
  .object <| members
    [("apiVersion", some (.string "v1")), ("kind", some (.string "Pod")),
      ("metadata", some (.object (p.rest.metadata ++ members (ownMetadata p)))),
      ("spec", encodePart p.rest.spec (ownSpec p)), ("status", encodePart p.rest.status (ownStatus p))]

/-- A page of a listing: the pods, the version of the whole, and the token of the next page. -/
structure Page where
  pods : List Pod
  version : Option String
  continuation : Option String
  deriving Repr

def itemsField : Field := ⟨["items"], 0⟩
def metadataField : Field := ⟨["metadata"], 1⟩

def listMetadata : Schema :=
  .object (Schema.texts ["continue", "resourceVersion", "selfLink"] ++
    Schema.integers ["remainingItemCount"])

def filled? (s : Option String) : Option String := s.filter (!·.isEmpty)

def decodePage? : Decoder Page := fun v ↦ do
  match v with
  | .object fields =>
    let r := Record.named fields
    let pods ← r.required? itemsField (Value.asList? decodePod?)
    let about ← r.optional? metadataField (.object []) fun m ↦
      if listMetadata.accepts m then some m else none
    some
      { pods := pods
        version := filled? ((get? about "resourceVersion").bind Value.asString?)
        continuation := filled? ((get? about "continue").bind Value.asString?) }
  | _ => none

def statusField : Field := ⟨["status"], 0⟩
def messageField : Field := ⟨["message"], 1⟩
def reasonField : Field := ⟨["reason"], 2⟩
def codeField : Field := ⟨["code"], 3⟩
def detailsField : Field := ⟨["details"], 4⟩

def asCode? : Decoder Nat := fun v ↦ v.asNatural?.filter (· < 0x10000)

structure FailureReport where
  message : String
  code : Nat
  deriving DecidableEq, Repr

def decodeFailure? : Decoder FailureReport := fun v ↦ do
  let r ← Record.ofValue? 4 v
  let _ ← r.required? statusField Value.asString?
  let _ ← r.optional? reasonField "" Value.asString?
  some
    { message := ← r.optional? messageField "" Value.asString?
      code := ← r.required? codeField asCode? }

def detailsSchema : Schema :=
  .object <|
    Schema.texts ["name", "group", "kind", "uid"] ++ Schema.integers ["retryAfterSeconds"] ++
    [("causes", .list (.object (Schema.texts ["reason", "message", "field"])))]

def isStatus (v : Value) : Bool :=
  let ok := do
    match v with
    | .object fields =>
      let r := Record.named fields
      let _ ← r.optional? statusField none (Value.asOption? fun s ↦ do
        let s ← s.asString?
        if s = "Success" || s = "Failure" then some s else none)
      let _ ← r.optional? messageField "" Value.asString?
      let _ ← r.optional? reasonField "" Value.asString?
      let _ ← r.optional? codeField 0 asCode?
      let _ ← r.optional? detailsField none (Value.asOption? fun d ↦
        if detailsSchema.accepts d then some () else none)
      some ()
    | _ => none
  ok.isSome

inductive Change
  | added (pod : Pod)
  | modified (pod : Pod)
  | deleted (pod : Pod)
  | bookmark (version : String)
  | failed (report : FailureReport)
  deriving Repr

def typeField : Field := ⟨["type"], 0⟩
def objectField : Field := ⟨["object"], 1⟩

def decodeBookmark? : Decoder String := fun v ↦ do
  let _ ← (← get? v "apiVersion").asString?
  let _ ← (← get? v "kind").asString?
  textAt? v "metadata" "resourceVersion"

def decodeChange? : Decoder Change := fun v ↦ do
  let r ← Record.ofValue? 2 v
  match ← r.required? typeField Value.asString? with
  | "ADDED" => (← r.required? objectField decodePod?) |> some ∘ .added
  | "MODIFIED" => (← r.required? objectField decodePod?) |> some ∘ .modified
  | "DELETED" => (← r.required? objectField decodePod?) |> some ∘ .deleted
  | "BOOKMARK" => (← r.required? objectField decodeBookmark?) |> some ∘ .bookmark
  | "ERROR" => (← r.required? objectField decodeFailure?) |> some ∘ .failed
  | _ => none

end SelfHealing.Kubernetes
