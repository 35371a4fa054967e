import SelfHealing.Registry

/-!
The entry that decides for a host: the first one that lists it, if one does.
-/

namespace SelfHealing

open Net

namespace Registry

variable {r : Registry} {host : Address} {entry : HostEntry}

theorem entry?_listed (h : r.entry? host = some entry) : entry ∈ r.hosts ∧ host ∈ entry.addresses := by
  refine ⟨List.mem_of_find?_eq_some h, ?_⟩
  simpa [HostEntry.lists] using List.find?_some h

theorem entry?_eq_none (h : ∀ entry ∈ r.hosts, host ∉ entry.addresses) : r.entry? host = none := by
  rw [Registry.entry?, List.find?_eq_none]
  intro entry he
  simpa [HostEntry.lists] using h entry he

theorem entry?_of_listed (hmem : entry ∈ r.hosts) (h : host ∈ entry.addresses) :
    ∃ first, r.entry? host = some first := by
  rw [← Option.isSome_iff_exists, entry?, List.find?_isSome]
  exact ⟨entry, hmem, by simpa [HostEntry.lists] using h⟩

/-- Both lookups of a target come to the same entry. -/
theorem target_eq (r : Registry) (host : Address) :
    r.target host =
      match r.entry? host with
      | some e => .ok ⟨host, r.resolve e, e.bindings⟩
      | none => .error (.hostNotRegistered host) := by
  unfold target credentialFor
  cases r.entry? host <;> rfl

theorem target_of_entry (h : r.entry? host = some entry) :
    r.target host = .ok ⟨host, r.resolve entry, entry.bindings⟩ := by
  rw [target_eq, h]

theorem target_of_none (h : r.entry? host = none) : r.target host = .error (.hostNotRegistered host) := by
  rw [target_eq, h]

end Registry

end SelfHealing
