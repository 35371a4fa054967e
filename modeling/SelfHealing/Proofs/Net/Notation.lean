import SelfHealing.Proofs.Net.Address
import SelfHealing.Proofs.Text.Blank

/-!
How addresses are written. Main statement: the text of an address has its numbers in their shortest form and in small
letters, the first of the longest runs of two zeros or more left out, and dots where an IPv4 address is mapped.
-/

namespace SelfHealing.Net

open Text

section Numerals

variable {radix : Nat}

def smallDigits : List Char := "0123456789abcdef".toList

/-- A number with no zero in front of it, and in small letters. -/
structure Numeral (radix n : Nat) (cs : List Char) : Prop where
  value : natural? radix cs = some n
  small : ∀ c ∈ cs, c ∈ smallDigits
  shortest : cs.head? = some '0' → cs = ['0']

theorem exists_of_mem_digits (hlow : 2 ≤ radix) {n : Nat} {c : Char} (h : c ∈ digits radix n) :
    ∃ d < radix, c = lowerDigit d := by
  fun_induction digits radix n with
  | case1 n hn hlt ih =>
    obtain h | h := List.mem_append.mp h
    · exact ih h
    · exact ⟨n % radix, Nat.mod_lt n (by omega), List.mem_singleton.mp h⟩
  | case2 n hn => exact ⟨n, by omega, List.mem_singleton.mp h⟩

theorem lowerDigit_mem_smallDigits : ∀ d < 16, lowerDigit d ∈ smallDigits := by decide

theorem numeral_digits (hlow : 2 ≤ radix) (hradix : radix ≤ 16) (n : Nat) : Numeral radix n (digits radix n) where
  value := natural?_digits hlow (by omega) n
  small c hc := by
    obtain ⟨d, hd, rfl⟩ := exists_of_mem_digits hlow hc
    exact lowerDigit_mem_smallDigits d (by omega)
  shortest hzero := by
    rcases Nat.eq_zero_or_pos n with rfl | hn
    · unfold digits
      rw [dif_neg (by omega)]
      rfl
    · exact absurd hzero (head?_digits_ne hlow (by omega) hn)

end Numerals

inductive Colons : List UInt16 → List Char → Prop
  | nil : Colons [] []
  | last {g : UInt16} {cs : List Char} : Numeral 16 g.toNat cs → Colons [g] cs
  | cons {g next : UInt16} {groups : List UInt16} {cs rest : List Char} :
      Numeral 16 g.toNat cs → Colons (next :: groups) rest → Colons (g :: next :: groups) (cs ++ ':' :: rest)

inductive Written : Address → List Char → Prop
  | dotted {a b c d : UInt8} {as bs cs ds : List Char} : Numeral 10 a.toNat as → Numeral 10 b.toNat bs →
      Numeral 10 c.toNat cs → Numeral 10 d.toNat ds →
      Written (.v4 ⟨a, b, c, d⟩) (as ++ '.' :: bs ++ '.' :: cs ++ '.' :: ds)
  | mapped {a : Address6} {inner : Address4} {cs : List Char} : a.mapped? = some inner →
      Written (.v4 inner) cs → Written (.v6 a) ("::ffff:".toList ++ cs)
  | plain {a : Address6} {cs : List Char} : a.mapped? = none → (∀ run : ZeroRun, run.In a.groups → run.length < 2) →
      Colons a.groups cs → Written (.v6 a) cs
  | compressed {a : Address6} {front back : List UInt16} {count : Nat} {fs bs : List Char} : a.mapped? = none →
      a.groups = front ++ List.replicate count 0 ++ back → 2 ≤ count →
      (∀ run : ZeroRun, run.In a.groups →
        run.length ≤ count ∧ (run.length = count → front.length ≤ run.start)) →
      Colons front fs → Colons back bs → Written (.v6 a) (fs ++ ':' :: ':' :: bs)

theorem colons_groupsChars (groups : List UInt16) : Colons groups (groupsChars groups) := by
  induction groups with
  | nil => exact .nil
  | cons g groups ih =>
    have hg : Numeral 16 g.toNat (digits 16 g.toNat) := numeral_digits (by omega) (Nat.le_refl 16) g.toNat
    cases groups with
    | nil => simpa [groupsChars] using Colons.last hg
    | cons next groups =>
      have htext : groupsChars (g :: next :: groups) = digits 16 g.toNat ++ ':' :: groupsChars (next :: groups) := by
        rw [groupsChars_cons, groupsChars_cons]
        simp [laterGroups]
      rw [htext]
      exact .cons hg ih

section ZeroRuns

variable {groups : List UInt16}

theorem ZeroRun.In.length_le {run : ZeroRun} (h : run.In groups) :
    run.length ≤ (zeroRunAt groups run.start).length := by
  obtain ⟨front, back, rfl, hstart⟩ := h
  have hdrop : (front ++ List.replicate run.length 0 ++ back).drop run.start = List.replicate run.length 0 ++ back := by
    rw [List.append_assoc, ← hstart, List.drop_left]
  have hzeros : ∀ g ∈ List.replicate run.length (0 : UInt16), decide (g = 0) = true := fun g hg ↦ by
    simp [List.eq_of_mem_replicate hg]
  rw [zeroRunAt, hdrop, List.takeWhile_append_of_pos hzeros, List.length_append, List.length_replicate]
  exact Nat.le_add_right _ _

/-- Of the runs that begin before some place, none is longer, and none of those that are as long begins earlier. -/
structure FirstLongest (groups : List UInt16) (limit : Nat) (best : ZeroRun) : Prop where
  start_le : best.start ≤ limit
  longest : ∀ start < limit, (zeroRunAt groups start).length ≤ best.length
  first : ∀ start < limit, (zeroRunAt groups start).length = best.length → best.start ≤ start

theorem FirstLongest.step {limit : Nat} {best : ZeroRun} (h : FirstLongest groups limit best) :
    FirstLongest groups (limit + 1)
      (if best.length < (zeroRunAt groups limit).length then zeroRunAt groups limit else best) := by
  split
  · rename_i hlonger
    refine ⟨Nat.le_succ limit, fun start hstart ↦ ?_, fun start hstart heq ↦ ?_⟩
    · rcases Nat.lt_succ_iff_lt_or_eq.mp hstart with hbefore | rfl
      · exact Nat.le_trans (h.longest start hbefore) (Nat.le_of_lt hlonger)
      · exact Nat.le_refl _
    · rcases Nat.lt_succ_iff_lt_or_eq.mp hstart with hbefore | rfl
      · exact absurd (h.longest start hbefore) (by omega)
      · exact Nat.le_refl _
  · rename_i hnot
    refine ⟨Nat.le_trans h.start_le (Nat.le_succ limit), fun start hstart ↦ ?_, fun start hstart heq ↦ ?_⟩
    · rcases Nat.lt_succ_iff_lt_or_eq.mp hstart with hbefore | rfl
      · exact h.longest start hbefore
      · exact Nat.le_of_not_lt hnot
    · rcases Nat.lt_succ_iff_lt_or_eq.mp hstart with hbefore | rfl
      · exact h.first start hbefore heq
      · exact h.start_le

theorem firstLongest_longestZeroRun (groups : List UInt16) :
    FirstLongest groups groups.length (longestZeroRun groups) := by
  unfold longestZeroRun
  generalize groups.length = limit
  induction limit with
  | zero => exact ⟨Nat.le_refl 0, nofun, nofun⟩
  | succ limit ih =>
    rw [List.range_succ, List.foldl_append]
    exact ih.step

/-- The run that is left out is the first of the longest. -/
theorem ZeroRun.In.le_longest {run : ZeroRun} (h : run.In groups) (hrun : 0 < run.length) :
    run.length ≤ (longestZeroRun groups).length ∧
      (run.length = (longestZeroRun groups).length → (longestZeroRun groups).start ≤ run.start) := by
  have hbest := firstLongest_longestZeroRun groups
  have hstart : run.start < groups.length := by
    obtain ⟨front, back, rfl, hstart⟩ := h
    simp only [List.length_append, List.length_replicate]
    omega
  have hlongest := hbest.longest run.start hstart
  exact ⟨Nat.le_trans h.length_le hlongest, fun heq ↦ hbest.first run.start hstart (by have := h.length_le; omega)⟩

end ZeroRuns

section Texts

theorem written_four (a : Address4) : Written (.v4 a) a.chars :=
  have hnumber (n : UInt8) : Numeral 10 n.toNat (digits 10 n.toNat) := numeral_digits (by omega) (by omega) n.toNat
  .dotted (hnumber a.a) (hnumber a.b) (hnumber a.c) (hnumber a.d)

theorem written_six (a : Address6) : Written (.v6 a) a.chars := by
  unfold Address6.chars
  cases hmapped : a.mapped? with
  | some inner => exact .mapped hmapped (written_four inner)
  | none =>
    dsimp only
    have hbest {run : ZeroRun} (h : run.In a.groups) (hrun : 0 < run.length) := h.le_longest hrun
    obtain ⟨front, back, hgroups, hstart⟩ := longestZeroRun_in a.groups
    generalize longestZeroRun a.groups = best at hbest hgroups hstart ⊢
    split
    · rename_i hlong
      have hfront : a.groups.take best.start = front := by
        rw [hgroups, List.append_assoc, ← hstart, List.take_left]
      have hback : a.groups.drop (best.start + best.length) = back := by
        rw [hgroups]
        exact List.drop_left' (by simp [hstart])
      rw [hfront, hback, List.append_assoc]
      refine .compressed hmapped hgroups hlong (fun run hrun ↦ ?_) (colons_groupsChars front) (colons_groupsChars back)
      rcases Nat.eq_zero_or_pos run.length with hzero | hpos
      · exact ⟨by omega, fun heq ↦ by omega⟩
      · rw [hstart]
        exact hbest hrun hpos
    · rename_i hshort
      refine .plain hmapped (fun run hrun ↦ ?_) (colons_groupsChars a.groups)
      rcases Nat.eq_zero_or_pos run.length with hzero | hpos
      · omega
      · have hle := (hbest hrun hpos).1
        omega

theorem written_text (a : Address) : Written a a.text.toList := by
  rw [Address.text, String.toList_ofList]
  cases a with
  | v4 a => exact written_four a
  | v6 a => exact written_six a

theorem Numeral.not_blank {radix n : Nat} {cs : List Char} (h : Numeral radix n cs) : ∀ c ∈ cs, isBlank c = false := by
  have hdigits : ∀ c ∈ smallDigits, isBlank c = false := not_blank_of_all (by decide)
  exact fun c hc ↦ hdigits c (h.small c hc)

theorem Colons.not_blank {groups : List UInt16} {cs : List Char} (h : Colons groups cs) : ∀ c ∈ cs, isBlank c = false := by
  induction h with
  | nil => exact List.forall_mem_nil _
  | last hg => exact hg.not_blank
  | cons hg _ ih => exact List.forall_mem_append.mpr ⟨hg.not_blank, List.forall_mem_cons.mpr ⟨rfl, ih⟩⟩

theorem Written.not_blank {a : Address} {cs : List Char} (h : Written a cs) : ∀ c ∈ cs, isBlank c = false := by
  induction h with
  | dotted ha hb hc hd =>
    have hdotted {cs : List Char} (h : ∀ c ∈ cs, isBlank c = false) : ∀ c ∈ '.' :: cs, isBlank c = false :=
      List.forall_mem_cons.mpr ⟨rfl, h⟩
    simp only [List.forall_mem_append]
    exact ⟨⟨⟨ha.not_blank, hdotted hb.not_blank⟩, hdotted hc.not_blank⟩, hdotted hd.not_blank⟩
  | mapped _ _ ih => exact List.forall_mem_append.mpr ⟨not_blank_of_all (by decide), ih⟩
  | plain _ _ hcolons => exact hcolons.not_blank
  | compressed _ _ _ _ hfront hback =>
    exact List.forall_mem_append.mpr ⟨hfront.not_blank, List.forall_mem_cons.mpr ⟨rfl, List.forall_mem_cons.mpr
      ⟨rfl, hback.not_blank⟩⟩⟩

theorem text_inj {a b : Address} : a.text = b.text ↔ a = b := by
  refine ⟨fun h ↦ Option.some.inj ?_, fun h ↦ by rw [h]⟩
  rw [← a.parse?_text, ← b.parse?_text, h]

end Texts

end SelfHealing.Net
