import SelfHealing.Error
import SelfHealing.Text.Blank
import SelfHealing.Text.Numeral

/-!
How to log in to a host. An empty field is unset and takes the value of the credential below it.
-/

namespace SelfHealing

open Net Text

structure Credential where
  encrypted : Bool
  user : String
  password : String
  keyPath : String
  keyPassphrase : String
  port : String
  deriving DecidableEq, Repr

namespace Credential

def empty : Credential := ⟨false, "", "", "", "", ""⟩

instance : Inhabited Credential := ⟨empty⟩

def superuser : String := "root"

def defaultPort : Nat := 22

def maxPort : Nat := 65535

def orElse (own base : String) : String :=
  if own.isEmpty then base else own

/-- `own` laid over `base`, field by field. -/
def mergedOnto (own base : Credential) : Credential :=
  { encrypted := own.encrypted || base.encrypted
    user := orElse own.user base.user
    password := orElse own.password base.password
    keyPath := orElse own.keyPath base.keyPath
    keyPassphrase := orElse own.keyPassphrase base.keyPassphrase
    port := orElse own.port base.port }

def effectiveUser (c : Credential) : String :=
  orElse c.user superuser

def isRoot (c : Credential) : Bool :=
  c.effectiveUser = superuser

def withUser (c : Credential) : Credential :=
  { c with user := c.effectiveUser }

def portNumber? (text : String) : Option Nat :=
  if text.isEmpty then some defaultPort else unsigned? maxPort (trimChars text.toList)

def invalidPort (c : Credential) (host : Address) : Error :=
  .invalidCredential host ("invalid port '" ++ c.port ++ "'")

def portFor (c : Credential) (host : Address) : Except Error Nat :=
  match portNumber? c.port with
  | some n => .ok n
  | none => .error (c.invalidPort host)

end Credential

end SelfHealing
