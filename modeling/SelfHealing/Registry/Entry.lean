import SelfHealing.Registry.Credential

/-!
One entry of the host registry: addresses that share roles, overrides and an environment.
-/

namespace SelfHealing

open Net Text

structure Binding where
  key : String
  value : String
  deriving DecidableEq, Repr

/-- The text before the first `=` and the text after it. -/
def splitAssignment : List Char → Option (List Char × List Char)
  | [] => none
  | '=' :: rest => some ([], rest)
  | c :: rest => (splitAssignment rest).map fun (key, value) ↦ (c :: key, value)

/-- The binding that an item writes; none without `=` or with a blank key. -/
def Binding.parse? (item : String) : Option Binding := do
  let (key, value) ← splitAssignment item.toList
  let key := trimChars key
  if key.isEmpty then none else some ⟨String.ofList key, String.ofList value⟩

def Binding.render (b : Binding) : String :=
  b.key ++ "=" ++ b.value

def bindingsOf (items : List String) : List Binding :=
  items.filterMap Binding.parse?

structure HostEntry where
  addresses : List Address
  roles : List String
  overrides : Credential
  environment : List String
  deriving DecidableEq, Repr

namespace HostEntry

def empty : HostEntry := ⟨[], [], .empty, []⟩

instance : Inhabited HostEntry := ⟨empty⟩

def bindings (e : HostEntry) : List Binding :=
  bindingsOf e.environment

def lists (e : HostEntry) (host : Address) : Bool :=
  host ∈ e.addresses

end HostEntry

end SelfHealing
