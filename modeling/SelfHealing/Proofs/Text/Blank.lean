import Mathlib.Data.List.DropRight
import SelfHealing.Text.Blank

/-!
Texts without what stands around them. Main statements: what is dropped at the end of a text is all that may be dropped
there, and a text is trimmed to the one that is left without the white space around it.
-/

namespace SelfHealing.Text

def Stripped (p : Char → Bool) (text line : List Char) : Prop :=
  ∃ tail, text = line ++ tail ∧ (∀ c ∈ tail, p c = true) ∧ ∀ c ∈ line.getLast?, p c = false

theorem stripped_dropTrailing (p : Char → Bool) (cs : List Char) : Stripped p cs (dropTrailing p cs) := by
  have hwhole : cs.rdropWhile p ++ cs.rtakeWhile p = cs := List.rdropWhile_append_rtakeWhile ..
  refine ⟨cs.rtakeWhile p, hwhole.symm, fun c hc ↦ List.mem_rtakeWhile_imp hc, fun c hc ↦ ?_⟩
  obtain ⟨hne, rfl⟩ := List.mem_getLast?_eq_getLast hc
  exact Bool.eq_false_iff.mpr (List.rdropWhile_last_not p cs hne)

theorem Stripped.not_mem {p : Char → Bool} {text line : List Char} {c : Char} (h : Stripped p text line) (hp : p c = true)
    (htext : c ∉ text.dropLast) : c ∉ line := by
  obtain ⟨tail, rfl, -, hlast⟩ := h
  intro hc
  obtain ⟨front, last, rfl⟩ | rfl := tail.eq_nil_or_concat'.symm
  · rw [← List.append_assoc, List.dropLast_concat] at htext
    exact htext (List.mem_append_left _ hc)
  · obtain ⟨front, last, rfl⟩ := line.eq_nil_or_concat'.resolve_left (List.ne_nil_of_mem hc)
    rw [List.append_nil, List.dropLast_concat] at htext
    obtain rfl : c = last := by simpa [htext] using hc
    exact absurd hp (Bool.eq_false_iff.mp (hlast c (by simp)))

theorem dropWhile_append_of_plain {p : Char → Bool} {front cs : List Char} (hfront : ∀ c ∈ front, p c = true)
    (hcs : ∀ c ∈ cs.head?, p c = false) : (front ++ cs).dropWhile p = cs := by
  rw [List.dropWhile_append_of_pos hfront]
  cases cs with
  | nil => rfl
  | cons c cs => exact List.dropWhile_cons_of_neg (Bool.eq_false_iff.mp (hcs c rfl))

theorem dropTrailing_append_of_plain {p : Char → Bool} {back cs : List Char} (hback : ∀ c ∈ back, p c = true)
    (hcs : ∀ c ∈ cs.getLast?, p c = false) : dropTrailing p (cs ++ back) = cs := by
  rw [dropTrailing, List.reverse_append, dropWhile_append_of_plain, List.reverse_reverse]
  · exact fun c hc ↦ hback c (List.mem_reverse.mp hc)
  · rwa [List.head?_reverse]

theorem not_blank_of_all {cs : List Char} (h : cs.all (!isBlank ·) = true) : ∀ c ∈ cs, isBlank c = false :=
  fun c hc ↦ by simpa using List.all_eq_true.mp h c hc

theorem trimChars_surrounded {before after cs : List Char} (hbefore : ∀ c ∈ before, isBlank c = true)
    (hafter : ∀ c ∈ after, isBlank c = true) (hfirst : ∀ c ∈ cs.head?, isBlank c = false)
    (hlast : ∀ c ∈ cs.getLast?, isBlank c = false) : trimChars (before ++ (cs ++ after)) = cs := by
  cases cs with
  | nil =>
    have hblank : ∀ c ∈ before ++ ([] ++ after), isBlank c = true :=
      List.forall_mem_append.mpr ⟨hbefore, hafter⟩
    rw [trimChars, List.dropWhile_eq_nil_iff.mpr hblank]
    rfl
  | cons c cs =>
    rw [trimChars, dropWhile_append_of_plain hbefore (by simpa using hfirst)]
    exact dropTrailing_append_of_plain hafter hlast

/-- The characters of the Unicode property `White_Space`. -/
def whiteSpace : List Char :=
  ['\t', '\n', '\x0b', '\x0c', '\r', ' ', '\x85', '\xa0', '\u1680', '\u2000', '\u2001', '\u2002', '\u2003', '\u2004',
    '\u2005', '\u2006', '\u2007', '\u2008', '\u2009', '\u200a', '\u2028', '\u2029', '\u202f', '\u205f', '\u3000']

theorem isBlank_iff {c : Char} : isBlank c = true ↔ c ∈ whiteSpace := by
  have hchar (d : Char) : c = d ↔ c.val.toNat = d.val.toNat := by
    rw [UInt32.toNat_inj, Char.ext_iff]
  simp only [isBlank, whiteSpace, Bool.or_eq_true, Bool.and_eq_true, decide_eq_true_iff, beq_iff_eq, List.mem_cons,
    List.not_mem_nil, or_false, hchar, UInt32.le_iff_toNat_le, ← UInt32.toNat_inj, UInt32.reduceToNat, Char.reduceVal]
  omega

theorem isBlank_eq_false_iff {c : Char} : isBlank c = false ↔ c ∉ whiteSpace := by
  rw [← isBlank_iff, Bool.not_eq_true]

structure Trimmed (text core : List Char) : Prop where
  around : ∃ before after, text = before ++ (core ++ after) ∧ before ⊆ whiteSpace ∧ after ⊆ whiteSpace
  first : ∀ c ∈ core.head?, c ∉ whiteSpace
  last : ∀ c ∈ core.getLast?, c ∉ whiteSpace

theorem trimmed_trimChars (text : List Char) : Trimmed text (trimChars text) := by
  obtain ⟨tail, hwhole, htail, hlast⟩ := stripped_dropTrailing isBlank (text.dropWhile isBlank)
  refine ⟨⟨text.takeWhile isBlank, tail, ?_, fun c hc ↦ ?_, fun c hc ↦ ?_⟩, fun c hc ↦ ?_, fun c hc ↦ ?_⟩
  · rw [trimChars, ← hwhole, List.takeWhile_append_dropWhile]
  · exact isBlank_iff.mp (List.mem_takeWhile_imp hc)
  · exact isBlank_iff.mp (htail c hc)
  · -- What is left begins as the text does behind its white space.
    have hhead : (text.dropWhile isBlank).head? = some c := by
      rw [hwhole, List.head?_append]
      exact Option.or_eq_some_iff.mpr (.inl hc)
    have hstop := List.head?_dropWhile_not isBlank text
    rw [hhead] at hstop
    exact isBlank_eq_false_iff.mp hstop
  · exact isBlank_eq_false_iff.mp (hlast c hc)

/-- There is one way to trim. -/
theorem trimmed_iff {text core : List Char} : Trimmed text core ↔ core = trimChars text := by
  constructor
  · rintro ⟨⟨before, after, rfl, hbefore, hafter⟩, hfirst, hlast⟩
    exact (trimChars_surrounded (fun c hc ↦ isBlank_iff.mpr (hbefore hc)) (fun c hc ↦ isBlank_iff.mpr (hafter hc))
      (fun c hc ↦ isBlank_eq_false_iff.mpr (hfirst c hc)) fun c hc ↦ isBlank_eq_false_iff.mpr (hlast c hc)).symm
  · rintro rfl
    exact trimmed_trimChars text

namespace Trimmed

variable {text core : List Char}

theorem again (h : Trimmed text core) : Trimmed core core :=
  ⟨⟨[], [], by simp, List.nil_subset _, List.nil_subset _⟩, h.first, h.last⟩

theorem subset (h : Trimmed text core) : core ⊆ text := by
  obtain ⟨before, after, rfl, -⟩ := h.around
  exact List.Subset.trans (List.subset_append_left core after) (List.subset_append_right before _)

theorem eq_nil_iff (h : Trimmed text core) : core = [] ↔ text ⊆ whiteSpace := by
  constructor
  · rintro rfl
    obtain ⟨before, after, rfl, hbefore, hafter⟩ := h.around
    exact List.append_subset.mpr ⟨hbefore, hafter⟩
  · intro htext
    cases core with
    | nil => rfl
    | cons c core => exact absurd (htext (h.subset List.mem_cons_self)) (h.first c rfl)

end Trimmed

end SelfHealing.Text
