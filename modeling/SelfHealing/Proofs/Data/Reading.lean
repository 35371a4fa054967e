import Mathlib.Data.List.Forall2
import SelfHealing.Data.Record

/-!
What a reading that succeeds has found: a list is read item by item, an object of names entry by entry, and a field of a
record where the record has it.
-/

namespace SelfHealing.Data

variable {α β : Type}

theorem mapM_eq_some_iff {f : α → Option β} {l : List α} {k : List β} :
    l.mapM f = some k ↔ List.Forall₂ (fun a b ↦ f a = some b) l k := by
  induction l generalizing k with
  | nil => simp [eq_comm]
  | cons a rest ih =>
    rw [List.mapM_cons, List.forall₂_cons_left_iff]
    simp only [Option.bind_eq_bind, Option.bind_eq_some_iff, Option.pure_def, Option.some.injEq, ih]
    constructor
    · rintro ⟨b, hb, bs, hbs, rfl⟩
      exact ⟨b, bs, hb, hbs, rfl⟩
    · rintro ⟨b, bs, hb, hbs, rfl⟩
      exact ⟨b, hb, bs, hbs, rfl⟩

namespace Value

theorem allReadable_eq (items : List Value) : allReadable items = items.all readable := by
  induction items with
  | nil => rfl
  | cons v rest ih => rw [allReadable, ih, List.all_cons]

theorem fieldsReadable_eq (fields : List (Key × Value)) : fieldsReadable fields = fields.all (·.2.readable) := by
  induction fields with
  | nil => rfl
  | cons entry rest ih => rw [fieldsReadable, ih, List.all_cons]

theorem asList?_eq_some {decode : Decoder α} {v : Value} {xs : List α} :
    asList? decode v = some xs ↔
      ∃ items, v = .array items ∧ List.Forall₂ (fun item x ↦ decode item = some x) items xs := by
  cases v <;> simp [asList?, mapM_eq_some_iff]

/-- The value that a record has for a field: a member of an object under the field's name, or the item of an array in
the field's place. -/
def member? (name : String) (place : Nat) : Value → Option Value
  | object fields => (fields.find? fun entry ↦ entry.1 = .name name ∨ entry.1 = .position place).map Prod.snd
  | array items => items[place]?
  | _ => none

def textUnder? (v : Value) (name : String) : Option String := (v.get? name).bind asString?

end Value

theorem entries?_eq_some {decode : Decoder α} {v : Value} {entries : List (String × α)} :
    entries? decode v = some entries ↔
      ∃ fields, v = .object fields ∧
        List.Forall₂ (fun field entry ↦ field.1 = .name entry.1 ∧ decode field.2 = some entry.2) fields entries := by
  cases v with
  | object fields =>
    simp only [entries?, mapM_eq_some_iff, Value.object.injEq, exists_eq_left']
    refine iff_of_eq (congrArg (List.Forall₂ · fields entries) ?_)
    funext ⟨key, x⟩ ⟨name, a⟩
    cases key <;> simp [Option.bind_eq_some_iff, and_comm]
  | _ => simp [entries?]

theorem find?_entries {decode : Decoder α} {fields : List (Key × Value)} {entries : List (String × α)}
    (h : List.Forall₂ (fun field entry ↦ field.1 = .name entry.1 ∧ decode field.2 = some entry.2) fields entries)
    (name : String) :
    ((fields.find? fun field ↦ field.1 = .name name).map Prod.snd).bind decode = entries.lookup name := by
  induction h with
  | nil => rfl
  | @cons field entry fields entries hentry _ ih =>
    obtain ⟨key, x⟩ := field
    obtain ⟨own, a⟩ := entry
    obtain ⟨rfl, hx⟩ := hentry
    by_cases hname : name = own
    · simp [hname, hx]
    · have hkey : ¬(Key.name own = .name name) := fun h ↦ hname (Key.name.inj h).symm
      simpa [hkey, hname, List.lookup_cons, beq_false_of_ne hname] using ih

namespace Record

variable {r : Record} {f : Field} {v : Value}

theorem required?_eq_some {decode : Decoder α} {a : α} :
    r.required? f decode = some a ↔ ∃ v, r.field? f = some (some v) ∧ decode v = some a := by
  unfold required?
  rcases r.field? f with _ | _ | v <;> simp

theorem field?_ofValue? {count place : Nat} {name : String} (hr : ofValue? count v = some r) {x : Value}
    (h : r.field? ⟨[name], place⟩ = some (some x)) : v.member? name place = some x := by
  cases v with
  | object fields =>
    obtain rfl : named fields = r := Option.some.inj hr
    have hanswers : (fun entry : Key × Value ↦ (⟨[name], place⟩ : Field).answers entry.1) =
        fun entry ↦ decide (entry.1 = .name name ∨ entry.1 = .position place) := by
      funext ⟨key, y⟩
      cases key <;> simp [Field.answers]
    simp only [field?, hanswers] at h
    rw [Value.member?, ← List.head?_filter]
    split at h
    · cases h
    · rename_i hfilter
      rw [hfilter]
      exact Option.some.inj h
    · cases h
  | array items =>
    obtain ⟨-, rfl⟩ : items.length ≤ count ∧ listed items = r := by simpa [ofValue?] using hr
    exact Option.some.inj h
  | _ => cases hr

end Record

end SelfHealing.Data
