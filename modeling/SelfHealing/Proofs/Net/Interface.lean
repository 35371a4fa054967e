import Mathlib.Data.List.Induction
import Mathlib.Data.List.Nodup
import SelfHealing.Command.Executor
import SelfHealing.Net.Interface

/-!
The addresses of this machine. Main statement: they are those of its interfaces, each once and in the order in which
they first occur, so that a command stays on this machine just where an interface has the address of its host.
-/

namespace SelfHealing.Net

/-- The addresses of the entries, each once and in the order in which they first occur. -/
structure FirstOccurrences (entries : List InterfaceEntry) (own : List Address) : Prop where
  distinct : own.Nodup
  complete : ∀ a, a ∈ own ↔ .address a ∈ entries
  ordered : own.Pairwise fun a b ↦ entries.idxOf (.address a) < entries.idxOf (.address b)

namespace FirstOccurrences

variable {entries : List InterfaceEntry} {own other : List Address}

theorem nil : FirstOccurrences [] [] := ⟨List.nodup_nil, by simp, .nil⟩

theorem ordered_append (h : FirstOccurrences entries own) (more : List InterfaceEntry) :
    own.Pairwise fun a b ↦ (entries ++ more).idxOf (.address a) < (entries ++ more).idxOf (.address b) := by
  refine h.ordered.imp_of_mem fun ha hb hlt ↦ ?_
  rwa [List.idxOf_append_of_mem ((h.complete _).mp ha), List.idxOf_append_of_mem ((h.complete _).mp hb)]

theorem skip (h : FirstOccurrences entries own) {entry : InterfaceEntry}
    (hentry : ∀ a, entry = .address a → a ∈ own) : FirstOccurrences (entries ++ [entry]) own where
  distinct := h.distinct
  complete a := by
    rw [List.mem_append, List.mem_singleton, h.complete]
    exact ⟨.inl, fun ha ↦ ha.elim id fun heq ↦ (h.complete a).mp (hentry a heq.symm)⟩
  ordered := h.ordered_append _

theorem add (h : FirstOccurrences entries own) {a : Address} (ha : a ∉ own) :
    FirstOccurrences (entries ++ [.address a]) (own ++ [a]) where
  distinct := List.nodup_append'.mpr ⟨h.distinct, List.nodup_singleton a, by simpa using ha⟩
  complete b := by simp [h.complete]
  ordered := by
    have hfirst : .address a ∉ entries := mt (h.complete a).mpr ha
    refine List.pairwise_append.mpr ⟨h.ordered_append _, List.pairwise_singleton _ _, fun b hb c hc ↦ ?_⟩
    obtain rfl := List.mem_singleton.mp hc
    have hmem := (h.complete b).mp hb
    rw [List.idxOf_append_of_mem hmem, List.idxOf_append_of_notMem hfirst]
    exact Nat.lt_add_right _ (List.idxOf_lt_length_of_mem hmem)

theorem unique (h : FirstOccurrences entries own) (h' : FirstOccurrences entries other) : own = other := by
  have hperm : own.Perm other := (List.perm_ext_iff_of_nodup h.distinct h'.distinct).mpr fun a ↦
    (h.complete a).trans (h'.complete a).symm
  exact hperm.eq_of_pairwise (fun a b _ _ hlt hgt ↦ absurd hlt (Nat.lt_asymm hgt)) h.ordered h'.ordered

end FirstOccurrences

theorem addNew_of_mem {known : List Address} {a : Address} (h : a ∈ known) : addNew known a = known := if_pos h

theorem addNew_of_not_mem {known : List Address} {a : Address} (h : a ∉ known) : addNew known a = known ++ [a] :=
  if_neg h

theorem localAddresses_append (entries more : List InterfaceEntry) :
    localAddresses (entries ++ more) = (more.filterMap InterfaceEntry.ip?).foldl addNew (localAddresses entries) := by
  rw [localAddresses, List.filterMap_append, List.foldl_append]
  rfl

theorem localAddresses_concat (entries : List InterfaceEntry) (a : Address) :
    localAddresses (entries ++ [.address a]) = addNew (localAddresses entries) a :=
  localAddresses_append entries [.address a]

theorem firstOccurrences_localAddresses (entries : List InterfaceEntry) :
    FirstOccurrences entries (localAddresses entries) := by
  induction entries using List.reverseRecOn with
  | nil => exact .nil
  | append_singleton entries entry ih =>
    cases entry with
    | unaddressed =>
      rw [localAddresses_append]
      exact ih.skip nofun
    | foreign =>
      rw [localAddresses_append]
      exact ih.skip nofun
    | address a =>
      rw [localAddresses_concat]
      by_cases ha : a ∈ localAddresses entries
      · rw [addNew_of_mem ha]
        refine ih.skip fun b hb ↦ ?_
        cases hb
        exact ha
      · rw [addNew_of_not_mem ha]
        exact ih.add ha

theorem prefix_foldl_addNew (known found : List Address) : known <+: found.foldl addNew known := by
  induction found generalizing known with
  | nil => exact List.prefix_rfl
  | cons a found ih =>
    have hstep : known <+: addNew known a := by
      by_cases ha : a ∈ known
      · exact ⟨[], by rw [addNew_of_mem ha, List.append_nil]⟩
      · exact ⟨[a], (addNew_of_not_mem ha).symm⟩
    exact hstep.trans (ih (addNew known a))

theorem mem_localAddresses {entries : List InterfaceEntry} {a : Address} :
    a ∈ localAddresses entries ↔ .address a ∈ entries :=
  (firstOccurrences_localAddresses entries).complete a

theorem isLocal_localAddresses (entries : List InterfaceEntry) (host : Address) :
    isLocal host (localAddresses entries) = true ↔ .address host ∈ entries := by
  rw [isLocal, decide_eq_true_iff, mem_localAddresses]

/-- Entries put behind others neither remove nor move an address. -/
theorem localAddresses_prefix (entries more : List InterfaceEntry) :
    localAddresses entries <+: localAddresses (entries ++ more) := by
  rw [localAddresses_append]
  exact prefix_foldl_addNew _ _

theorem route_localAddresses {m : Type → Type} [Monad m] (e : Command.Executor m) (entries : List InterfaceEntry)
    (host : Address) : { e with own := localAddresses entries }.route host = .here ↔ .address host ∈ entries := by
  rw [Command.Executor.route, ← isLocal_localAddresses]
  simp

theorem localAddresses_ordered (entries : List InterfaceEntry) :
    (∀ own, FirstOccurrences entries own ↔ own = localAddresses entries) ∧
      (∀ host, isLocal host (localAddresses entries) = true ↔ .address host ∈ entries) ∧
      (∀ {m : Type → Type} [Monad m] (e : Command.Executor m) (host : Address),
        { e with own := localAddresses entries }.route host = .here ↔ .address host ∈ entries) ∧
      ∀ more, localAddresses entries <+: localAddresses (entries ++ more) := by
  have hfirst := firstOccurrences_localAddresses entries
  exact ⟨fun own ↦ ⟨fun h ↦ h.unique hfirst, fun h ↦ h ▸ hfirst⟩, isLocal_localAddresses entries,
    fun e ↦ route_localAddresses e entries, localAddresses_prefix entries⟩

/-- An address and the one that maps it are two. -/
example : localAddresses [.foreign, .address (.v4 ⟨127, 0, 0, 1⟩), .unaddressed,
      .address (.v6 ⟨[0, 0, 0, 0, 0, 0xffff, 0x7f00, 1], rfl⟩), .address (.v4 ⟨127, 0, 0, 1⟩)] =
    [.v4 ⟨127, 0, 0, 1⟩, .v6 ⟨[0, 0, 0, 0, 0, 0xffff, 0x7f00, 1], rfl⟩] := by
  decide

end SelfHealing.Net
