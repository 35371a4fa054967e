import Mathlib.Data.List.Forall2
import SelfHealing.Proofs.Data.Reading

/-!
Records that are stated in another way: their entries come in another order, entries that the record does not declare
are added, and what a declared field holds may itself be stated in another way. Main statement: a decoder that does not
tell the values of the declared fields apart does not tell the records apart.
-/

namespace SelfHealing.Data

variable {α : Type}

/-- A field that a record declares, and when one value of it states another in another way. -/
structure Declared where
  field : Field
  restates : Value → Value → Prop

/-- The entries of an object, stated in another way: a declared field holds what it held or states that in another way,
entries under other keys may have been added, and the order is free. -/
def Restated (declared : List Declared) (entries entries' : List (Key × Value)) : Prop :=
  ∃ kept added : List (Key × Value),
    List.Forall₂ (fun entry entry' ↦ entry.1 = entry'.1 ∧
      ∀ d ∈ declared, d.field.answers entry.1 → d.restates entry.2 entry'.2) entries kept ∧
    (∀ entry ∈ added, ∀ d ∈ declared, d.field.answers entry.1 = false) ∧ entries'.Perm (kept ++ added)

namespace Record

/-- A record written as an object or as an array of its fields, stated in another way. -/
inductive Restated (declared : List Declared) : Value → Value → Prop
  | same (v : Value) : Restated declared v v
  | named {entries entries' : List (Key × Value)} (h : Data.Restated declared entries entries') :
      Restated declared (.object entries) (.object entries')
  | listed {items items' : List Value} (hlength : items.length = items'.length)
      (h : ∀ d ∈ declared, Option.Rel d.restates items[d.field.position]? items'[d.field.position]?) :
      Restated declared (.array items) (.array items')

/-- Two records as one of their fields sees them: both have it, with values of which the second restates the first, or
neither has, or neither can be read. -/
def Agrees (r s : Record) (d : Declared) : Prop :=
  Option.Rel (Option.Rel d.restates) (r.field? d.field) (s.field? d.field)

variable {r s : Record} {f : Field} {restates : Value → Value → Prop}

theorem Agrees.required? (h : Agrees r s ⟨f, restates⟩) {decode : Decoder α}
    (hdecode : ∀ v w, restates v w → decode v = decode w) : r.required? f decode = s.required? f decode := by
  unfold Agrees at h
  unfold Record.required?
  generalize r.field? f = found, s.field? f = found' at h
  rcases h with @⟨_, _, @⟨v, w, hvw⟩ | _⟩ | _
  · exact hdecode v w hvw
  · rfl
  · rfl

theorem Agrees.optional? (h : Agrees r s ⟨f, restates⟩) {decode : Decoder α}
    (hdecode : ∀ v w, restates v w → decode v = decode w) (absent : α) :
    r.optional? f absent decode = s.optional? f absent decode := by
  unfold Agrees at h
  unfold Record.optional?
  generalize r.field? f = found, s.field? f = found' at h
  rcases h with @⟨_, _, @⟨v, w, hvw⟩ | _⟩ | _
  · exact hdecode v w hvw
  · rfl
  · rfl

theorem Agrees.field? (h : Agrees r s ⟨f, Eq⟩) : r.field? f = s.field? f := by
  unfold Agrees at h
  generalize r.field? f = found, s.field? f = found' at h
  rcases h with @⟨_, _, @⟨v, w, rfl⟩ | _⟩ | _ <;> rfl

theorem readable_of_field? {entries : List (Key × Value)} (h : (Value.object entries).readable) {v : Value}
    (hv : (named entries).field? f = some (some v)) : v.readable := by
  have hall : ∀ entry ∈ entries, entry.2.readable := by
    rwa [Value.readable, Value.fieldsReadable_eq, List.all_eq_true] at h
  simp only [Record.field?] at hv
  split at hv
  · cases hv
  · obtain rfl := Option.some.inj (Option.some.inj hv)
    have hmem := List.mem_of_mem_filter (‹_ = [_]› ▸ List.mem_singleton_self _)
    exact hall _ hmem
  · cases hv

end Record

section Agreement

open Record

variable {declared : List Declared} {entries entries' : List (Key × Value)}

theorem Restated.of_perm (added : List (Key × Value)) (hrefl : ∀ d ∈ declared, ∀ v, d.restates v v)
    (hadded : ∀ entry ∈ added, ∀ d ∈ declared, d.field.answers entry.1 = false)
    (hperm : entries'.Perm (entries ++ added)) : Restated declared entries entries' :=
  ⟨entries, added, List.forall₂_same.mpr fun entry _ ↦ ⟨rfl, fun d hd _ ↦ hrefl d hd entry.2⟩, hadded, hperm⟩

theorem Restated.mono {fewer : List Declared} (h : Restated declared entries entries') (hsub : fewer ⊆ declared) :
    Restated fewer entries entries' := by
  obtain ⟨kept, added, hkept, hadded, hperm⟩ := h
  exact ⟨kept, added, hkept.imp fun _ _ hentry ↦ ⟨hentry.1, fun d hd ↦ hentry.2 d (hsub hd)⟩,
    fun entry hentry d hd ↦ hadded entry hentry d (hsub hd), hperm⟩

theorem Restated.filter (h : Restated declared entries entries') (p : Key → Bool) :
    Restated declared (entries.filter fun entry ↦ p entry.1) (entries'.filter fun entry ↦ p entry.1) := by
  obtain ⟨kept, added, hkept, hadded, hperm⟩ := h
  refine ⟨kept.filter fun entry ↦ p entry.1, added.filter fun entry ↦ p entry.1,
    List.rel_filter (fun entry entry' hentry ↦ by simp only [hentry.1]) hkept,
    fun entry hentry ↦ hadded entry (List.mem_of_mem_filter hentry), ?_⟩
  rw [← List.filter_append]
  exact hperm.filter _

theorem Restated.answering (h : Restated declared entries entries') {d : Declared} (hd : d ∈ declared) :
    ∃ kept : List (Key × Value),
      List.Forall₂ (fun entry entry' ↦ d.restates entry.2 entry'.2)
        (entries.filter fun entry ↦ d.field.answers entry.1) kept ∧
      (entries'.filter fun entry ↦ d.field.answers entry.1).Perm kept := by
  obtain ⟨kept, added, hkept, hadded, hperm⟩ := h
  refine ⟨kept.filter fun entry ↦ d.field.answers entry.1, ?_, ?_⟩
  · have hall : ∀ entry ∈ entries.filter fun entry ↦ d.field.answers entry.1, d.field.answers entry.1 :=
      fun entry hentry ↦ (List.mem_filter.mp hentry).2
    have hrel := List.rel_filter (p := fun entry ↦ d.field.answers entry.1) (q := fun entry ↦ d.field.answers entry.1)
      (fun entry entry' hentry ↦ by simp only [hentry.1]) hkept
    exact ((List.forall₂_and_left _ _).mpr ⟨hall, hrel⟩).imp fun entry entry' hentry ↦ hentry.2.2 d hd hentry.1
  · have hnone : (added.filter fun entry ↦ d.field.answers entry.1) = [] :=
      List.filter_eq_nil_iff.mpr fun entry hentry ↦ by simp [hadded entry hentry d hd]
    have hfilter := hperm.filter fun entry ↦ d.field.answers entry.1
    rwa [List.filter_append, hnone, List.append_nil] at hfilter

theorem Restated.agrees (h : Restated declared entries entries') {d : Declared} (hd : d ∈ declared) :
    Agrees (named entries) (named entries') d := by
  obtain ⟨kept, hkept, hperm⟩ := h.answering hd
  simp only [Agrees, Record.field?]
  generalize entries.filter (fun entry ↦ d.field.answers entry.1) = found,
    entries'.filter (fun entry ↦ d.field.answers entry.1) = found' at hkept hperm
  cases hkept with
  | nil =>
    obtain rfl := List.perm_nil.mp hperm
    exact .some .none
  | cons hfirst hrest =>
    cases hrest with
    | nil =>
      obtain rfl := List.perm_singleton.mp hperm
      exact .some (.some hfirst)
    | cons hsecond hrest =>
      -- The field is there more than once, in both.
      have hlength := hperm.length_eq
      rcases found' with _ | ⟨first, _ | ⟨second, rest⟩⟩
      · cases hlength
      · cases hlength
      · exact .none

theorem Record.Restated.bind_congr {v w : Value} (h : Record.Restated declared v w) {read : Record → Option α}
    (hread : ∀ r s, (∀ d ∈ declared, Agrees r s d) → read r = read s) (count : Nat) :
    (ofValue? count v).bind read = (ofValue? count w).bind read := by
  cases h with
  | same => rfl
  | named h => exact hread _ _ fun d hd ↦ h.agrees hd
  | @listed items items' hlength h =>
    simp only [ofValue?, hlength]
    split
    · exact hread _ _ fun d hd ↦ .some (h d hd)
    · rfl

end Agreement

end SelfHealing.Data
