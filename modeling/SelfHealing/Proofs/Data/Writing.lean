import SelfHealing.Proofs.Data.Reading
import SelfHealing.Proofs.Lookup

/-!
Data that is written and read again: the items of a list, the entries of an object of names, and the fields of a record,
each of them under one of its names or left out.
-/

namespace SelfHealing.Data

variable {α : Type}

namespace Value

theorem readable_map {encode : α → Value} {l : List α} (h : ∀ a ∈ l, (encode a).readable) :
    (array (l.map encode)).readable := by
  rw [readable, allReadable_eq, List.all_map]
  exact List.all_eq_true.mpr h

theorem readable_named (fields : List (String × Value)) : (named fields).readable = fields.all (·.2.readable) := by
  rw [named, readable, fieldsReadable_eq, List.all_map]
  rfl

theorem asList?_map {decode : Decoder α} {encode : α → Value} {l : List α}
    (h : ∀ a ∈ l, decode (encode a) = some a) : asList? decode (.array (l.map encode)) = some l :=
  asList?_eq_some.mpr ⟨_, rfl, List.forall₂_map_left_iff.mpr (List.forall₂_same.mpr h)⟩

end Value

theorem entries?_named {decode : Decoder α} {encode : α → Value} (h : ∀ a, decode (encode a) = some a)
    (entries : List (String × α)) :
    entries? decode (.named (entries.map fun (name, a) ↦ (name, encode a))) = some entries := by
  refine entries?_eq_some.mpr ⟨_, rfl, ?_⟩
  rw [List.map_map, List.forall₂_map_left_iff, List.forall₂_same]
  exact fun entry _ ↦ ⟨rfl, h entry.2⟩

section Members

variable {members : List (String × Option Value)}

def present (members : List (String × Option Value)) : List (String × Value) :=
  members.filterMap fun (name, v) ↦ v.map (name, ·)

theorem present_append (front back : List (String × Option Value)) :
    present (front ++ back) = present front ++ present back :=
  List.filterMap_append

theorem filter_present_of_not_mem {name : String} (h : name ∉ members.map Prod.fst) :
    (present members).filter (fun entry ↦ entry.1 = name) = [] := by
  rw [List.filter_eq_nil_iff]
  intro entry hentry hname
  obtain ⟨⟨own, v⟩, hmember, hv⟩ := List.mem_filterMap.mp hentry
  obtain ⟨x, -, rfl⟩ := Option.map_eq_some_iff.mp hv
  exact h (List.mem_map.mpr ⟨_, hmember, of_decide_eq_true hname⟩)

theorem filter_present (h : (members.map Prod.fst).Nodup) (name : String) :
    (present members).filter (fun entry ↦ entry.1 = name) = ((members.lookup name).join.map (name, ·)).toList := by
  induction members with
  | nil => rfl
  | cons member rest ih =>
    obtain ⟨own, v⟩ := member
    obtain ⟨hown, hrest⟩ := List.nodup_cons.mp h
    have hpresent : present ((own, v) :: rest) = (v.map (own, ·)).toList ++ present rest := by
      cases v <;> rfl
    rw [hpresent, List.filter_append, lookup_cons_if]
    by_cases hname : name = own
    · subst hname
      rw [if_pos rfl, filter_present_of_not_mem hown]
      cases v <;> simp
    · rw [if_neg hname, ih hrest]
      cases v <;> simp [Ne.symm hname]

theorem filter_named (h : (members.map Prod.fst).Nodup) (name : String) (p : Key → Bool)
    (hp : ∀ own, p (.name own) = decide (own = name)) :
    ((present members).map fun (name, v) ↦ (Key.name name, v)).filter (fun entry ↦ p entry.1) =
      ((members.lookup name).join.map (Key.name name, ·)).toList := by
  have hcomp : (fun entry : Key × Value ↦ p entry.1) ∘ (fun entry : String × Value ↦ (Key.name entry.1, entry.2)) =
      fun entry ↦ decide (entry.1 = name) := by
    funext entry
    exact hp entry.1
  rw [List.filter_map, hcomp, filter_present h]
  cases (members.lookup name).join <;> rfl

def Value.Holds (v : Value) (members : List (String × Option Value)) : Prop :=
  (∃ fields, v = .object fields) ∧ ∀ name, v.get? name = (members.lookup name).join

theorem Value.Holds.of_present {v : Value} (hv : v = .named (present members)) (h : (members.map Prod.fst).Nodup) :
    v.Holds members := by
  subst hv
  refine ⟨⟨_, rfl⟩, ?_⟩
  intro name
  have hfilter := filter_named h name (fun key ↦ decide (key = .name name)) (by simp)
  rw [Value.named, Value.get?, ← List.head?_filter, List.filter_reverse, hfilter]
  cases (members.lookup name).join <;> rfl

theorem Value.readable_present (h : ∀ member ∈ members, ∀ v ∈ member.2, v.readable) :
    (Value.named (present members)).readable := by
  rw [readable_named, List.all_eq_true]
  intro entry hentry
  obtain ⟨⟨name, v⟩, hmember, hv⟩ := List.mem_filterMap.mp hentry
  obtain ⟨x, hx, rfl⟩ := Option.map_eq_some_iff.mp hv
  exact h _ hmember x hx

end Members

namespace Record

def written (entries : List (String × Value)) : Record := named (entries.map fun (name, v) ↦ (.name name, v))

theorem ofValue?_named (count : Nat) (entries : List (String × Value)) :
    ofValue? count (.named entries) = some (written entries) := rfl

theorem field?_present {members : List (String × Option Value)} (h : (members.map Prod.fst).Nodup) (name : String)
    (place : Nat) : (written (present members)).field? ⟨[name], place⟩ = some (members.lookup name).join := by
  have hfilter := filter_named h name (⟨[name], place⟩ : Field).answers (by simp [Field.answers])
  simp only [written, field?, hfilter]
  cases (members.lookup name).join <;> rfl

section Fields

variable {r : Record} {f : Field} {v : Value}

theorem required?_of_field? (h : r.field? f = some (some v)) (decode : Decoder α) :
    r.required? f decode = decode v := by
  simp only [required?, h, Option.bind_eq_bind, Option.bind_some]

theorem optional?_of_field? (h : r.field? f = some (some v)) (absent : α) (decode : Decoder α) :
    r.optional? f absent decode = decode v := by
  simp only [optional?, h, Option.bind_eq_bind, Option.bind_some]

theorem optional?_absent (h : r.field? f = some none) (absent : α) (decode : Decoder α) :
    r.optional? f absent decode = some absent := by
  simp only [optional?, h, Option.bind_eq_bind, Option.bind_some]

end Fields

end Record

end SelfHealing.Data
