import SelfHealing.Cluster.Location
import SelfHealing.Proofs.Net.Interface
import SelfHealing.Proofs.Net.Notation
import SelfHealing.Proofs.Registry.Entry

/-!
Addresses told by the cluster. Main statement: a host is told by the text of its address, in whatever white space it
stands, and is then found in the registry and among the addresses of this machine just where that address is.
-/

namespace SelfHealing

open Net Text

namespace HostLocation

def told (node : String) (before : List Char) (a : Address) (after : List Char) : HostLocation :=
  ⟨node, String.ofList before ++ a.text ++ String.ofList after⟩

variable {before after : List Char}

theorem address?_told (hbefore : ∀ c ∈ before, isBlank c = true) (hafter : ∀ c ∈ after, isBlank c = true)
    (node : String) (a : Address) : (told node before a after).address? = some a := by
  have hplain := (written_text a).not_blank
  have htext : (told node before a after).hostText.toList = before ++ (a.text.toList ++ after) := by
    simp [told]
  have htrim : trim (told node before a after).hostText = a.text := by
    rw [trim, htext, trimChars_surrounded hbefore hafter (fun c hc ↦ hplain c (List.mem_of_mem_head? hc))
      (fun c hc ↦ hplain c (List.mem_of_mem_getLast? hc)), String.ofList_toList]
  rw [address?, htrim, Address.parse?_text]

theorem bind_entry?_eq_some {l : HostLocation} {a : Address} (h : l.address? = some a) (r : Registry) (e : HostEntry) :
    l.address?.bind r.entry? = some e ↔ a ∈ e.addresses ∧ ∃ front back, r.hosts = front ++ e :: back ∧
      ∀ other ∈ front, a ∉ other.addresses := by
  rw [h, Option.bind_some, Registry.entry?, List.find?_eq_some_iff_append]
  simp [HostEntry.lists]

theorem bind_entry?_isSome {l : HostLocation} {a : Address} (h : l.address? = some a) (r : Registry) :
    (l.address?.bind r.entry?).isSome ↔ ∃ e ∈ r.hosts, a ∈ e.addresses := by
  rw [h, Option.bind_some, Registry.entry?, List.find?_isSome]
  simp [HostEntry.lists]

/-- A host is recognized by the text of its address, and by that of no other. -/
theorem told_recognized (hbefore : ∀ c ∈ before, isBlank c = true) (hafter : ∀ c ∈ after, isBlank c = true)
    (node : String) (a : Address) :
    Written a a.text.toList ∧ (∀ b, a.text = b.text ↔ a = b) ∧
      (told node before a after).address? = some a ∧
      (∀ r : Registry, ((told node before a after).address?.bind r.entry?).isSome ↔
        ∃ e ∈ r.hosts, a ∈ e.addresses) ∧
      (∀ (r : Registry) e, (told node before a after).address?.bind r.entry? = some e ↔ a ∈ e.addresses ∧
        ∃ front back, r.hosts = front ++ e :: back ∧ ∀ other ∈ front, a ∉ other.addresses) ∧
      ∀ entries, (told node before a after).address?.any (isLocal · (localAddresses entries)) = true ↔
        .address a ∈ entries := by
  have haddress := address?_told hbefore hafter node a
  refine ⟨written_text a, fun b ↦ text_inj, haddress, bind_entry?_isSome haddress, bind_entry?_eq_some haddress,
    fun entries ↦ ?_⟩
  rw [haddress, Option.any_some, isLocal, decide_eq_true_iff, mem_localAddresses]

/-- A mapped address among white space of several kinds, and the address that it maps. -/
theorem told_recognized_mapped :
    (told "worker-1" ['\u3000', '\n'] (.v6 ⟨[0, 0, 0, 0, 0, 0xffff, 0x0a00, 9], rfl⟩) ['\u2028', ' ']).hostText =
        "\u3000\n::ffff:10.0.0.9\u2028 " ∧
      (told "worker-1" ['\u3000', '\n'] (.v6 ⟨[0, 0, 0, 0, 0, 0xffff, 0x0a00, 9], rfl⟩) ['\u2028', ' ']).address? =
        some (.v6 ⟨[0, 0, 0, 0, 0, 0xffff, 0x0a00, 9], rfl⟩) ∧
      (Address.v6 ⟨[0, 0, 0, 0, 0, 0xffff, 0x0a00, 9], rfl⟩).text ≠ (Address.v4 ⟨10, 0, 0, 9⟩).text := by
  have hbefore : ∀ c ∈ ['\u3000', '\n'], isBlank c = true := List.all_eq_true.mp rfl
  have hafter : ∀ c ∈ ['\u2028', ' '], isBlank c = true := List.all_eq_true.mp rfl
  obtain ⟨-, hdistinct, haddress, -⟩ := told_recognized hbefore hafter "worker-1"
    (.v6 ⟨[0, 0, 0, 0, 0, 0xffff, 0x0a00, 9], rfl⟩)
  exact ⟨by decide +kernel, haddress, mt (hdistinct _).mp nofun⟩

end HostLocation

end SelfHealing
