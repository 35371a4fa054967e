import SelfHealing.Net.Address

/-!
The addresses of a machine's own interfaces, by which a host is known to be this machine.
-/

namespace SelfHealing.Net

/-- One entry of the interface list: without an address, of another family, or with an address. -/
inductive InterfaceEntry
  | unaddressed
  | foreign
  | address (ip : Address)
  deriving DecidableEq, Repr

def InterfaceEntry.ip? : InterfaceEntry → Option Address
  | .address ip => some ip
  | _ => none

def addNew (known : List Address) (ip : Address) : List Address :=
  if ip ∈ known then known else known ++ [ip]

def localAddresses (entries : List InterfaceEntry) : List Address :=
  (entries.filterMap InterfaceEntry.ip?).foldl addNew []

def isLocal (host : Address) (own : List Address) : Bool :=
  host ∈ own

end SelfHealing.Net
