import SelfHealing.Proofs.Text.Blank
import SelfHealing.Registry.Entry

/-!
The environment of an entry. Main statement: the items bind, in their order, what stands before their first `=` to what
stands behind it, where that is more than white space; and bindings that are written as items bind the same again.
-/

namespace SelfHealing

open Text

structure Parted (item : String) (front value : List Char) : Prop where
  whole : item.toList = front ++ '=' :: value
  first : '=' ∉ front

/-- What the items of an environment bind, in their order. -/
inductive Binds : List String → List Binding → Prop
  | nil : Binds [] []
  | bare {item : String} {items : List String} {bs : List Binding} :
      '=' ∉ item.toList → Binds items bs → Binds (item :: items) bs
  | blank {item : String} {items : List String} {bs : List Binding} {front value : List Char} :
      Parted item front value → front ⊆ whiteSpace → Binds items bs → Binds (item :: items) bs
  | named {item : String} {items : List String} {bs : List Binding} {front : List Char} {b : Binding} :
      Parted item front b.value.toList → ¬front ⊆ whiteSpace → Trimmed front b.key.toList → Binds items bs →
      Binds (item :: items) (b :: bs)

/-- A key that can be written before a `=` and read again. -/
structure Binding.Keyed (b : Binding) : Prop where
  nonempty : b.key ≠ ""
  plain : '=' ∉ b.key.toList
  trimmed : Trimmed b.key.toList b.key.toList

variable {item : String} {items : List String} {front value : List Char} {b : Binding} {bs : List Binding}

theorem splitAssignment_parted (h : '=' ∉ front) (value : List Char) :
    splitAssignment (front ++ '=' :: value) = some (front, value) := by
  induction front with
  | nil => rfl
  | cons c front ih =>
    obtain ⟨hc, hfront⟩ := not_or.mp (mt List.mem_cons.mpr h)
    rw [List.cons_append, splitAssignment, ih hfront]
    · rfl
    · exact fun heq ↦ hc heq.symm

theorem splitAssignment_bare {cs : List Char} (h : '=' ∉ cs) : splitAssignment cs = none := by
  fun_induction splitAssignment cs with
  | case1 => rfl
  | case2 rest => exact absurd List.mem_cons_self h
  | case3 c rest _ ih => rw [ih fun hrest ↦ h (List.mem_cons_of_mem c hrest), Option.map_none]

theorem Parted.parse?_eq (h : Parted item front value) :
    Binding.parse? item =
      if (trimChars front).isEmpty then none else some ⟨String.ofList (trimChars front), String.ofList value⟩ := by
  rw [Binding.parse?, h.whole, splitAssignment_parted h.first]
  rfl

theorem Binding.parse?_bare (h : '=' ∉ item.toList) : Binding.parse? item = none := by
  rw [Binding.parse?, splitAssignment_bare h]
  rfl

theorem Parted.parse?_blank (h : Parted item front value) (hfront : front ⊆ whiteSpace) :
    Binding.parse? item = none := by
  rw [h.parse?_eq, (trimmed_trimChars front).eq_nil_iff.mpr hfront]
  rfl

theorem Parted.parse?_named (h : Parted item front b.value.toList) (hfront : ¬front ⊆ whiteSpace)
    (hkey : Trimmed front b.key.toList) : Binding.parse? item = some b := by
  have hne : b.key.toList.isEmpty = false := by
    rwa [List.isEmpty_eq_false_iff, ne_eq, hkey.eq_nil_iff]
  rw [h.parse?_eq, ← trimmed_iff.mp hkey, hne, String.ofList_toList, String.ofList_toList]
  rfl

theorem bindingsOf_skip (h : Binding.parse? item = none) : bindingsOf (item :: items) = bindingsOf items :=
  List.filterMap_cons_none h

theorem bindingsOf_bind (h : Binding.parse? item = some b) : bindingsOf (item :: items) = b :: bindingsOf items :=
  List.filterMap_cons_some h

theorem exists_parted (h : '=' ∈ item.toList) :
    ∃ front, ∃ b : Binding, Parted item front b.value.toList ∧ Trimmed front b.key.toList := by
  obtain ⟨front, value, hwhole, hfirst⟩ := List.eq_append_cons_of_mem h
  refine ⟨front, ⟨String.ofList (trimChars front), String.ofList value⟩, ⟨?_, hfirst⟩, ?_⟩
  · rwa [String.toList_ofList]
  · rw [String.toList_ofList]
    exact trimmed_trimChars front

theorem binds_bindingsOf (items : List String) : Binds items (bindingsOf items) := by
  induction items with
  | nil => exact .nil
  | cons item items ih =>
    by_cases hmem : '=' ∈ item.toList
    · obtain ⟨front, b, h, hkey⟩ := exists_parted hmem
      by_cases hfront : front ⊆ whiteSpace
      · rw [bindingsOf_skip (h.parse?_blank hfront)]
        exact .blank h hfront ih
      · rw [bindingsOf_bind (h.parse?_named hfront hkey)]
        exact .named h hfront hkey ih
    · rw [bindingsOf_skip (Binding.parse?_bare hmem)]
      exact .bare hmem ih

theorem binds_iff : Binds items bs ↔ bs = bindingsOf items := by
  constructor
  · intro h
    induction h with
    | nil => rfl
    | bare hbare _ ih => rw [ih, bindingsOf_skip (Binding.parse?_bare hbare)]
    | blank h hfront _ ih => rw [ih, bindingsOf_skip (h.parse?_blank hfront)]
    | named h hfront hkey _ ih => rw [ih, bindingsOf_bind (h.parse?_named hfront hkey)]
  · rintro rfl
    exact binds_bindingsOf items

theorem Binds.keyed (h : Binds items bs) : ∀ b ∈ bs, b.Keyed := by
  induction h with
  | nil => exact List.forall_mem_nil _
  | bare _ _ ih => exact ih
  | blank _ _ _ ih => exact ih
  | named h hfront hkey _ ih =>
    refine List.forall_mem_cons.mpr ⟨⟨fun hempty ↦ hfront ?_, fun hmem ↦ h.first (hkey.subset hmem), hkey.again⟩, ih⟩
    exact hkey.eq_nil_iff.mp (by rw [hempty]; rfl)

theorem Binding.Keyed.parse?_render (h : b.Keyed) : Binding.parse? b.render = some b := by
  have hparted : Parted b.render b.key.toList b.value.toList := ⟨by simp [render], h.plain⟩
  refine hparted.parse?_named ?_ h.trimmed
  rw [← h.trimmed.eq_nil_iff, String.toList_eq_nil_iff]
  exact h.nonempty

theorem bindingsOf_render (h : ∀ b ∈ bs, b.Keyed) : bindingsOf (bs.map Binding.render) = bs := by
  induction bs with
  | nil => rfl
  | cons b bs ih =>
    obtain ⟨hb, hbs⟩ := List.forall_mem_cons.mp h
    rw [List.map_cons, bindingsOf_bind hb.parse?_render, ih hbs]

namespace HostEntry

theorem bindings_in_order (e : HostEntry) :
    (∀ bs, Binds e.environment bs ↔ bs = e.bindings) ∧
      (∀ b ∈ e.bindings, b.Keyed) ∧
      { e with environment := e.bindings.map Binding.render }.bindings = e.bindings ∧
      ∀ more, { e with environment := e.environment ++ more }.bindings =
        e.bindings ++ { e with environment := more }.bindings := by
  have hkeyed : ∀ b ∈ e.bindings, b.Keyed := (binds_bindingsOf e.environment).keyed
  exact ⟨fun bs ↦ binds_iff, hkeyed, bindingsOf_render hkeyed, fun more ↦ List.filterMap_append⟩

def mixedItems : List String :=
  ["HTTPS_PROXY\t= http://proxy:3128?a=b ", "NOEQUALS", "=orphan", "\u3000 =blank", "EMPTY="]

theorem bindings_in_order_mixed :
    bindingsOf mixedItems = [⟨"HTTPS_PROXY", " http://proxy:3128?a=b "⟩, ⟨"EMPTY", ""⟩] ∧
      (⟨"HTTPS_PROXY", " http://proxy:3128?a=b "⟩ : Binding).Keyed ∧
      bindingsOf ["HTTPS_PROXY= http://proxy:3128?a=b ", "EMPTY="] = bindingsOf mixedItems := by
  have hbindings : (⟨[], [], .empty, mixedItems⟩ : HostEntry).bindings =
      [⟨"HTTPS_PROXY", " http://proxy:3128?a=b "⟩, ⟨"EMPTY", ""⟩] := by decide
  obtain ⟨-, hkeyed, hrendered, -⟩ := bindings_in_order ⟨[], [], .empty, mixedItems⟩
  rw [hbindings] at hkeyed hrendered
  exact ⟨hbindings, hkeyed _ List.mem_cons_self, hrendered.trans hbindings.symm⟩

end HostEntry

end SelfHealing
