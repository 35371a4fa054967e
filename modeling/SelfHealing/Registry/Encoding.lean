import SelfHealing.Data.Record
import SelfHealing.Net.Address.Reader
import SelfHealing.Net.Address.Writer
import SelfHealing.Registry

/-!
Credentials, entries and registries as trees of data. All their fields have defaults; empty fields of a
credential are not written.
-/

namespace SelfHealing

open Data Net

def decodeAddress? : Decoder Address := fun v ↦ do
  Address.parse? (← v.asString?)

def encodeAddress (a : Address) : Value := .string a.text

def encodeTexts (texts : List String) : Value := .array (texts.map .string)

def encodeNonempty (name text : String) : List (String × Value) :=
  if text.isEmpty then [] else [(name, .string text)]

namespace Credential

def encryptedField : Field := ⟨["encrypted"], 0⟩
def userField : Field := ⟨["user"], 1⟩
def passwordField : Field := ⟨["passwd"], 2⟩
def keyPathField : Field := ⟨["pk"], 3⟩
def keyPassphraseField : Field := ⟨["pkPasswd"], 4⟩
def portField : Field := ⟨["port"], 5⟩

def decode? : Decoder Credential := fun v ↦ do
  let r ← Record.ofValue? 6 v
  some
    { encrypted := ← r.optional? encryptedField false Value.asBool?
      user := ← r.optional? userField "" Value.asString?
      password := ← r.optional? passwordField "" Value.asString?
      keyPath := ← r.optional? keyPathField "" Value.asString?
      keyPassphrase := ← r.optional? keyPassphraseField "" Value.asString?
      port := ← r.optional? portField "" Value.asString? }

def encode (c : Credential) : Value :=
  .named <|
    (if c.encrypted then [("encrypted", .bool true)] else []) ++
      encodeNonempty "user" c.user ++ encodeNonempty "passwd" c.password ++
      encodeNonempty "pk" c.keyPath ++ encodeNonempty "pkPasswd" c.keyPassphrase ++
      encodeNonempty "port" c.port

end Credential

namespace HostEntry

def addressesField : Field := ⟨["ips"], 0⟩
def rolesField : Field := ⟨["roles"], 1⟩
def overridesField : Field := ⟨["ssh"], 2⟩
def environmentField : Field := ⟨["env"], 3⟩

def decode? : Decoder HostEntry := fun v ↦ do
  let r ← Record.ofValue? 4 v
  some
    { addresses := ← r.optional? addressesField [] (Value.asList? decodeAddress?)
      roles := ← r.optional? rolesField [] (Value.asList? Value.asString?)
      overrides := ← r.optional? overridesField .empty Credential.decode?
      environment := ← r.optional? environmentField [] (Value.asList? Value.asString?) }

def encode (e : HostEntry) : Value :=
  .named
    [("ips", .array (e.addresses.map encodeAddress)), ("roles", encodeTexts e.roles),
      ("ssh", e.overrides.encode), ("env", encodeTexts e.environment)]

end HostEntry

end SelfHealing
