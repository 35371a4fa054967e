/-!
Internet addresses of both families. An IPv6 address that maps an IPv4 address is an address of its own.
-/

namespace SelfHealing.Net

structure Address4 where
  a : UInt8
  b : UInt8
  c : UInt8
  d : UInt8
  deriving DecidableEq, Repr

structure Address6 where
  groups : List UInt16
  size : groups.length = 8
  deriving DecidableEq, Repr

inductive Address
  | v4 (address : Address4)
  | v6 (address : Address6)
  deriving DecidableEq, Repr

instance : Inhabited Address := ⟨.v4 ⟨0, 0, 0, 0⟩⟩

/-- The IPv4 address that `::ffff:a.b.c.d` stands for. -/
def Address6.mapped? (address : Address6) : Option Address4 :=
  match address.groups with
  | [0, 0, 0, 0, 0, 0xffff, hi, lo] =>
    some ⟨(hi / 256).toUInt8, (hi % 256).toUInt8, (lo / 256).toUInt8, (lo % 256).toUInt8⟩
  | _ => none

end SelfHealing.Net
