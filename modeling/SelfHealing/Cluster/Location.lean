import SelfHealing.Net.Address.Reader
import SelfHealing.Text.Blank

/-!
Where a pod runs, as the cluster tells it.
-/

namespace SelfHealing

open Net Text

structure HostLocation where
  node : String
  hostText : String
  deriving DecidableEq, Repr

namespace HostLocation

def unknown : HostLocation := ⟨"", ""⟩

def address? (l : HostLocation) : Option Address :=
  Address.parse? (trim l.hostText)

end HostLocation

end SelfHealing
