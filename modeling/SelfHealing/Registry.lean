import SelfHealing.Registry.Entry

/-!
The known hosts and the credential that holds for all of them. The first entry that lists a host decides for it.
-/

namespace SelfHealing

open Net

structure Registry where
  hosts : List HostEntry
  credential : Credential
  deriving DecidableEq, Repr

/-- What a command on a host needs: where, as whom, and with which variables. -/
structure Target where
  host : Address
  credential : Credential
  environment : List Binding
  deriving DecidableEq, Repr

namespace Registry

def empty : Registry := ⟨[], .empty⟩

instance : Inhabited Registry := ⟨empty⟩

def entry? (r : Registry) (host : Address) : Option HostEntry :=
  r.hosts.find? (·.lists host)

def entryIndex? (r : Registry) (host : Address) : Option Nat :=
  r.hosts.findIdx? (·.lists host)

def resolve (r : Registry) (e : HostEntry) : Credential :=
  (e.overrides.mergedOnto r.credential).withUser

def credentialFor (r : Registry) (host : Address) : Except Error Credential :=
  match r.entry? host with
  | some e => .ok (r.resolve e)
  | none => .error (.hostNotRegistered host)

/-- The credential is looked up first and the variables after it, of which there are none without an entry. -/
def target (r : Registry) (host : Address) : Except Error Target := do
  let credential ← r.credentialFor host
  let environment := ((r.entry? host).map (·.bindings)).getD []
  return ⟨host, credential, environment⟩

def addresses (r : Registry) : List Address :=
  r.hosts.flatMap (·.addresses)

end Registry

end SelfHealing
