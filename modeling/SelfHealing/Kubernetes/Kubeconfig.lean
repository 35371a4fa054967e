import SelfHealing.Kubernetes.Object
import SelfHealing.Net.Uri
import SelfHealing.Yaml.Decoding
import SelfHealing.Yaml.Parser

/-!
Kubeconfigs: which server to ask, and as whom. A context joins a cluster and a user, and the current one counts.
-/

namespace SelfHealing.Kubernetes

open Data

/-- A thing by its name; it may be told only that there is one. -/
structure Named (α : Type) where
  name : String
  content : Option α
  deriving Repr

structure ContextContent where
  cluster : String
  user : Option String
  space : Option String
  deriving DecidableEq, Repr

/-- Of a cluster its server counts; all that is asked of a user is to be there. -/
structure Kubeconfig where
  clusters : List (Named (Option String))
  users : List (Named Unit)
  contexts : List (Named ContextContent)
  current : Option String
  kind : Option String
  version : Option String
  deriving Repr

/-- The server that a client asks, and the namespace that it means. -/
structure Access where
  server : String
  space : String
  deriving DecidableEq, Repr

namespace Kubeconfig

def empty : Kubeconfig := ⟨[], [], [], none, none, none⟩

def nameField : Field := ⟨["name"], 0⟩
def clusterField : Field := ⟨["cluster"], 1⟩
def userField : Field := ⟨["user"], 1⟩
def contextField : Field := ⟨["context"], 1⟩
def serverField : Field := ⟨["server"], 0⟩
def clusterNameField : Field := ⟨["cluster"], 0⟩
def userNameField : Field := ⟨["user"], 1⟩
def spaceField : Field := ⟨["namespace"], 2⟩
def clustersField : Field := ⟨["clusters"], 1⟩
def usersField : Field := ⟨["users"], 2⟩
def contextsField : Field := ⟨["contexts"], 3⟩
def currentField : Field := ⟨["current-context"], 4⟩
def kindField : Field := ⟨["kind"], 6⟩
def versionField : Field := ⟨["apiVersion"], 7⟩

def fields? : Decoder Record
  | .object fields => some (.named fields)
  | _ => none

def text? (r : Record) (f : Field) : Option (Option String) :=
  r.optional? f none (Value.asOption? Value.asString?)

def decodeNamed? {α : Type} (content : Field) (decode : Decoder α) : Decoder (Named α) := fun v ↦ do
  let r ← fields? v
  some
    { name := ← r.required? nameField Value.asString?
      content := ← r.optional? content none (Value.asOption? decode) }

def clusterSchema : Schema :=
  .object <|
    Schema.texts ["server", "certificate-authority", "certificate-authority-data", "proxy-url",
      "tls-server-name"] ++
    Schema.booleans ["insecure-skip-tls-verify", "disable-compression"]

def decodeServer? : Decoder (Option String) := fun v ↦ do
  if !clusterSchema.accepts v then none
  else text? (← fields? v) serverField

def userSchema : Schema :=
  .object <|
    Schema.texts ["username", "password", "token", "tokenFile", "client-certificate",
      "client-certificate-data", "client-key", "client-key-data", "as"] ++
    [("as-groups", .list .text)]

def decodeUser? : Decoder Unit := fun v ↦ if userSchema.accepts v then some () else none

def decodeContext? : Decoder ContextContent := fun v ↦ do
  let r ← fields? v
  some
    { cluster := ← r.required? clusterNameField Value.asString?
      user := ← text? r userNameField
      space := ← text? r spaceField }

/-- A list, or nothing, which is an empty one. -/
def asItems? {α : Type} (decode : Decoder α) : Decoder (List α)
  | .null => some []
  | v => v.asList? decode

def decode? : Decoder Kubeconfig := fun v ↦ do
  let r ← fields? v
  if !v.readable then none
  else
    some
      { clusters := ← r.optional? clustersField [] (asItems? (decodeNamed? clusterField decodeServer?))
        users := ← r.optional? usersField [] (asItems? (decodeNamed? userField decodeUser?))
        contexts := ← r.optional? contextsField []
          (asItems? (decodeNamed? contextField decodeContext?))
        current := ← text? r currentField
        kind := ← text? r kindField
        version := ← text? r versionField }

/-- An empty document is an empty kubeconfig. -/
def parse? (s : String) : Option Kubeconfig := do
  let d ← Yaml.parse? s
  match d.root with
  | none => some empty
  | some n =>
    let (v, _) ← (d.value Yaml.depthLimit n).run 0
    decode? v

/-- Two texts that may differ only where one is missing. -/
def agree (a b : Option String) : Bool := a.isNone || b.isNone || a = b

def addNew {α : Type} (known more : List (Named α)) : List (Named α) :=
  known ++ more.filter fun n ↦ !known.any (·.name = n.name)

/-- One kubeconfig supplemented by another, which has to be of the same kind and version. -/
def merge? (a b : Kubeconfig) : Option Kubeconfig :=
  if agree a.kind b.kind && agree a.version b.version then
    some
      { clusters := addNew a.clusters b.clusters
        users := addNew a.users b.users
        contexts := addNew a.contexts b.contexts
        current := a.current <|> b.current
        kind := a.kind <|> b.kind
        version := a.version <|> b.version }
  else none

def content? {α : Type} (name : String) (things : List (Named α)) : Option α :=
  (things.find? (·.name = name)).bind Named.content

def defaultSpace : String := "default"

/-- The access by the current context, if all that it names is there. -/
def access? (k : Kubeconfig) : Option Access := do
  let context ← content? (← k.current) k.contexts
  let server ← (← content? context.cluster k.clusters)
  if !context.user.all (fun user ↦ (content? user k.users).isSome) then none
  else if !Net.isLocation server then none
  else some ⟨server, context.space.getD defaultSpace⟩

end Kubeconfig

end SelfHealing.Kubernetes
