import SelfHealing.Query

/-!
Values under names: what is found under a name, and what becomes of a set of labels when one of them is set. Setting a
label changes the value under its name and no other.
-/

namespace SelfHealing

section Lookup

variable {α β : Type} [DecidableEq α]

theorem lookup_cons_if (key : α) (b : β) (rest : List (α × β)) (a : α) :
    ((key, b) :: rest).lookup a = if a = key then some b else rest.lookup a := by
  rw [List.lookup_cons]
  by_cases h : a = key
  · simp [h]
  · simp [h, beq_false_of_ne h]

theorem lookup_filter (p : α → Bool) (l : List (α × β)) (a : α) :
    (l.filter fun entry ↦ p entry.1).lookup a = if p a then l.lookup a else none := by
  induction l with
  | nil => simp
  | cons entry rest ih =>
    obtain ⟨key, b⟩ := entry
    rw [List.filter_cons, lookup_cons_if]
    by_cases hp : p key
    · simp only [hp, if_true, lookup_cons_if, ih]
      by_cases ha : a = key
      · simp [ha, hp]
      · simp [ha]
    · simp only [hp, Bool.false_eq_true, if_false, ih]
      by_cases ha : a = key
      · simp only [ha, hp, Bool.false_eq_true, if_false]
      · simp only [ha, if_false]

theorem lookup_eq_none_of_forall {l : List (α × β)} {a : α} (h : ∀ entry ∈ l, entry.1 ≠ a) : l.lookup a = none :=
  List.lookup_eq_none_iff.mpr fun entry hentry ↦ bne_iff_ne.mpr (h entry hentry).symm

theorem ne_of_lookup_eq_none {l : List (α × β)} {a : α} (h : l.lookup a = none) {entry : α × β} (hentry : entry ∈ l) :
    entry.1 ≠ a :=
  (bne_iff_ne.mp (List.lookup_eq_none_iff.mp h entry hentry)).symm

end Lookup

namespace Labels

def Ordered (labels : Labels) : Prop := labels.Pairwise fun a b ↦ a.1 < b.1

def names (labels : Labels) : List String := labels.map Prod.fst

end Labels

section SetLabel

open Labels

variable {name other value : String} {labels : Labels}

theorem lookup_setLabel (name value : String) (labels : Labels) (other : String) :
    (setLabel name value labels).lookup other = if other = name then some value else labels.lookup other := by
  fun_induction setLabel name value labels with
  | case1 => rw [lookup_cons_if]
  | case2 old rest => by_cases ho : other = name <;> simp [lookup_cons_if, ho]
  | case3 head old rest => rw [lookup_cons_if]
  | case4 head old rest hne hafter ih =>
    rw [lookup_cons_if, lookup_cons_if, ih]
    by_cases ho : other = head
    · simp [ho, Ne.symm hne]
    · simp [ho]

theorem mem_setLabel {entry : String × String} (h : entry ∈ setLabel name value labels) :
    entry = (name, value) ∨ entry ∈ labels := by
  fun_induction setLabel name value labels with
  | case1 => exact .inl (List.mem_singleton.mp h)
  | case2 old rest => exact (List.mem_cons.mp h).imp_right (List.mem_cons_of_mem _)
  | case3 head old rest => exact List.mem_cons.mp h
  | case4 head old rest hne hafter ih =>
    obtain rfl | h := List.mem_cons.mp h
    · exact .inr (.head _)
    · exact (ih h).imp_right (List.mem_cons_of_mem _)

theorem ordered_setLabel (h : Ordered labels) (name value : String) : Ordered (setLabel name value labels) := by
  fun_induction setLabel name value labels with
  | case1 => exact List.pairwise_singleton ..
  | case2 old rest => exact List.pairwise_cons.mpr (List.pairwise_cons.mp h)
  | case3 head old rest hne hbefore =>
    refine List.pairwise_cons.mpr ⟨fun entry hentry ↦ ?_, h⟩
    obtain rfl | hentry := List.mem_cons.mp hentry
    · exact hbefore
    · exact String.lt_trans hbefore ((List.pairwise_cons.mp h).1 entry hentry)
  | case4 head old rest hne hafter ih =>
    obtain ⟨hfirst, hrest⟩ := List.pairwise_cons.mp h
    refine List.pairwise_cons.mpr ⟨fun entry hentry ↦ ?_, ih hrest⟩
    obtain rfl | hentry := mem_setLabel hentry
    · exact Std.lt_of_le_of_ne (String.not_lt.mp hafter) (Ne.symm hne)
    · exact hfirst entry hentry

theorem setLabel_setLabel (name value old : String) (labels : Labels) :
    setLabel name value (setLabel name old labels) = setLabel name value labels := by
  fun_induction setLabel name old labels with
  | case1 => simp [setLabel]
  | case2 kept rest => simp [setLabel]
  | case3 head kept rest hne hbefore => simp [setLabel, hne, hbefore]
  | case4 head kept rest hne hafter ih => simp [setLabel, hne, hafter, ih]

theorem setLabel_comm (h : name < other) (value shown : String) (labels : Labels) :
    setLabel name value (setLabel other shown labels) = setLabel other shown (setLabel name value labels) := by
  have hne : name ≠ other := fun hn ↦ String.lt_irrefl other (hn ▸ h)
  have hback : ¬other < name := String.lt_asymm h
  induction labels with
  | nil => simp [setLabel, h, hne, hne.symm, hback]
  | cons entry rest ih =>
    obtain ⟨head, old⟩ := entry
    grind [setLabel]

theorem names_setLabel (name value shown : String) (labels : Labels) :
    names (setLabel name value labels) = names (setLabel name shown labels) := by
  fun_induction setLabel name value labels with
  | case1 => rfl
  | case2 old rest => simp [names, setLabel]
  | case3 head old rest hne hbefore => simp [names, setLabel, hne, hbefore]
  | case4 head old rest hne hafter ih => simpa [names, setLabel, hne, hafter] using ih

theorem setLabel_last (h : ∀ entry ∈ labels, entry.1 < name) (value : String) :
    setLabel name value labels = labels ++ [(name, value)] := by
  induction labels with
  | nil => rfl
  | cons entry rest ih =>
    have hbefore : entry.1 < name := h entry (.head _)
    have hne : name ≠ entry.1 := fun hn ↦ String.lt_irrefl _ (hn ▸ hbefore)
    rw [setLabel, if_neg hne, if_neg (String.lt_asymm hbefore), ih fun e he ↦ h e (.tail _ he), List.cons_append]

/-- Labels that are set in their order are added one behind the other. -/
theorem foldl_setLabel_ordered {done labels : Labels} (h : Ordered (done ++ labels)) :
    labels.foldl (fun labels (name, value) ↦ setLabel name value labels) done = done ++ labels := by
  induction labels generalizing done with
  | nil => rw [List.foldl_nil, List.append_nil]
  | cons entry rest ih =>
    obtain ⟨name, value⟩ := entry
    have hbefore : ∀ e ∈ done, e.1 < name := by
      intro e he
      exact (List.pairwise_append.mp h).2.2 e he (name, value) (.head _)
    have hnext : Ordered ((done ++ [(name, value)]) ++ rest) := by
      rwa [List.append_assoc]
    simp only [List.foldl_cons, setLabel_last hbefore]
    rw [ih hnext, List.append_assoc, List.singleton_append]

theorem ordered_foldl (entries : List (String × String)) (h : Ordered labels) :
    Ordered (entries.foldl (fun labels (name, value) ↦ setLabel name value labels) labels) := by
  induction entries generalizing labels with
  | nil => exact h
  | cons entry rest ih => exact ih (ordered_setLabel h entry.1 entry.2)

end SetLabel

end SelfHealing
