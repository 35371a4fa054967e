import Mathlib.Algebra.Group.Nat.Defs
import Mathlib.Tactic.SplitIfs
import SelfHealing.Text.Numeral

/-!
Numbers written and read again. Main statements: the digits of a number read as that number, also with zeros in front,
and a number below a power of the radix fills no more than as many digits; a text reads as a decimal number just where
it is decimal digits of that value.
-/

namespace SelfHealing.Text

variable {radix : Nat}

theorem digitValue?_lowerDigit : ∀ radix ≤ 36, ∀ d < radix, digitValue? radix (lowerDigit d) = some d := by decide

theorem foldDigits?_append (front back : List Char) (acc : Nat) :
    foldDigits? radix acc (front ++ back) = (foldDigits? radix acc front).bind (foldDigits? radix · back) := by
  induction front generalizing acc with
  | nil => rfl
  | cons c rest ih =>
    rw [List.cons_append, foldDigits?, foldDigits?]
    cases digitValue? radix c with
    | none => rfl
    | some d => exact ih _

theorem foldDigits?_single (hradix : radix ≤ 36) {d : Nat} (hd : d < radix) (acc : Nat) :
    foldDigits? radix acc [lowerDigit d] = some (acc * radix + d) := by
  rw [foldDigits?, digitValue?_lowerDigit radix hradix d hd]
  rfl

theorem digits_ne_nil (n : Nat) : digits radix n ≠ [] := by
  unfold digits
  split <;> simp

theorem foldDigits?_digits (hlow : 2 ≤ radix) (hradix : radix ≤ 36) (n : Nat) :
    foldDigits? radix 0 (digits radix n) = some n := by
  fun_induction digits radix n with
  | case1 n h hlt ih =>
    rw [foldDigits?_append, ih, Option.bind_some, foldDigits?_single hradix (Nat.mod_lt n (by omega)),
      Nat.div_add_mod' n radix]
  | case2 n h =>
    have hn : n < radix := by omega
    rw [foldDigits?_single hradix hn, Nat.zero_mul, Nat.zero_add]

theorem foldDigits?_zeros (hlow : 2 ≤ radix) (hradix : radix ≤ 36) (k : Nat) (cs : List Char) :
    foldDigits? radix 0 (List.replicate k '0' ++ cs) = foldDigits? radix 0 cs := by
  have hzero : foldDigits? radix 0 ['0'] = some 0 := by
    rw [show ['0'] = [lowerDigit 0] from rfl, foldDigits?_single hradix (by omega), Nat.zero_mul]
  induction k with
  | zero => rfl
  | succ k ih =>
    have hcons : List.replicate (k + 1) '0' ++ cs = ['0'] ++ (List.replicate k '0' ++ cs) := rfl
    rw [hcons, foldDigits?_append, hzero]
    exact ih

theorem natural?_paddedDigits (hlow : 2 ≤ radix) (hradix : radix ≤ 36) (width n : Nat) :
    natural? radix (paddedDigits radix width n) = some n := by
  have hne : (paddedDigits radix width n).isEmpty = false := by
    simp [paddedDigits, digits_ne_nil]
  rw [natural?, hne]
  simp only [Bool.false_eq_true, if_false]
  rw [paddedDigits, foldDigits?_zeros hlow hradix, foldDigits?_digits hlow hradix]

theorem natural?_digits (hlow : 2 ≤ radix) (hradix : radix ≤ 36) (n : Nat) :
    natural? radix (digits radix n) = some n := by
  have h := natural?_paddedDigits hlow hradix 0 n
  rwa [paddedDigits, Nat.zero_sub, List.replicate_zero, List.nil_append] at h

theorem isSome_digitValue?_of_mem_digits (hlow : 2 ≤ radix) (hradix : radix ≤ 36) {n : Nat} {c : Char}
    (h : c ∈ digits radix n) : (digitValue? radix c).isSome := by
  fun_induction digits radix n with
  | case1 n hn hlt ih =>
    obtain h | h := List.mem_append.mp h
    · exact ih h
    · obtain rfl := List.mem_singleton.mp h
      rw [digitValue?_lowerDigit radix hradix _ (Nat.mod_lt n (by omega))]
      rfl
  | case2 n hn =>
    obtain rfl := List.mem_singleton.mp h
    rw [digitValue?_lowerDigit radix hradix n (by omega)]
    rfl

theorem head?_digits_ne (hlow : 2 ≤ radix) (hradix : radix ≤ 36) {n : Nat} (h : 0 < n) :
    (digits radix n).head? ≠ some '0' := by
  fun_induction digits radix n with
  | case1 n hn hlt ih =>
    have hhead := ih (Nat.div_pos hn.2 (by omega))
    cases hds : digits radix (n / radix) with
    | nil => exact absurd hds (digits_ne_nil _)
    | cons c rest => rwa [hds] at hhead
  | case2 n hn =>
    intro hhead
    have hzero : lowerDigit n = lowerDigit 0 := Option.some.inj hhead
    have hvalue := digitValue?_lowerDigit radix hradix n (by omega)
    rw [hzero, digitValue?_lowerDigit radix hradix 0 (by omega)] at hvalue
    exact absurd (Option.some.inj hvalue) (by omega)

theorem length_digits_le {width n : Nat} (hwidth : 0 < width) (h : n < radix ^ width) :
    (digits radix n).length ≤ width := by
  fun_induction digits radix n generalizing width with
  | case1 n hn hlt ih =>
    cases width with
    | zero => exact absurd hwidth (Nat.lt_irrefl 0)
    | succ width =>
      have hpos : 0 < width := by
        refine Nat.pos_of_ne_zero fun hzero ↦ ?_
        rw [hzero, Nat.zero_add, Nat.pow_one] at h
        omega
      have hless : n / radix < radix ^ width := Nat.div_lt_of_lt_mul (by rwa [Nat.pow_succ'] at h)
      rw [List.length_append]
      exact Nat.succ_le_succ (ih hpos hless)
  | case2 n hn => exact hwidth

theorem length_paddedDigits {width n : Nat} (hwidth : 0 < width) (h : n < radix ^ width) :
    (paddedDigits radix width n).length = width := by
  have hle := length_digits_le hwidth h
  rw [paddedDigits, List.length_append, List.length_replicate]
  omega

/-- Decimal digits, with or without zeros in front, and their value. -/
structure DecimalDigits (n : Nat) (cs : List Char) : Prop where
  nonempty : cs ≠ []
  digits : ∀ c ∈ cs, c.isDigit = true
  value : Nat.ofDigitChars 10 cs 0 = n

theorem digitValue?_ten (c : Char) : digitValue? 10 c = if c.isDigit then some (c.toNat - '0'.toNat) else none := by
  simp only [digitValue?, Char.isDigit_iff_toNat, Char.le_def, UInt32.le_iff_toNat_le, Char.toNat_val, Char.reduceToNat]
  by_cases hdigit : 48 ≤ c.toNat ∧ c.toNat ≤ 57
  · rw [if_pos hdigit, if_pos (by omega), if_pos hdigit]
  · rw [if_neg hdigit, if_neg hdigit, if_neg]
    split_ifs <;> omega

theorem foldDigits?_ten (cs : List Char) (acc : Nat) :
    foldDigits? 10 acc cs = if cs.all Char.isDigit then some (Nat.ofDigitChars 10 cs acc) else none := by
  induction cs generalizing acc with
  | nil => rfl
  | cons c cs ih =>
    rw [foldDigits?, digitValue?_ten, List.all_cons, Nat.ofDigitChars_cons, Nat.mul_comm 10 acc]
    cases c.isDigit with
    | false => rfl
    | true => exact ih _

theorem natural?_ten_eq_some_iff {cs : List Char} {n : Nat} : natural? 10 cs = some n ↔ DecimalDigits n cs := by
  rw [natural?, foldDigits?_ten]
  constructor
  · intro h
    split_ifs at h with hempty hdigits
    exact ⟨by simpa using hempty, List.all_eq_true.mp hdigits, Option.some.inj h⟩
  · rintro ⟨hne, hdigits, hvalue⟩
    rw [if_neg (by simpa using hne), if_pos (List.all_eq_true.mpr hdigits), hvalue]

theorem natural?_ten_eq_none_iff {cs : List Char} :
    natural? 10 cs = none ↔ cs = [] ∨ ∃ c ∈ cs, c.isDigit = false := by
  rw [natural?, foldDigits?_ten]
  split_ifs <;> simp_all

inductive Unsigned : List Char → List Char → Prop
  | plain {cs : List Char} : cs.head? ≠ some '+' → Unsigned cs cs
  | plus (cs : List Char) : Unsigned ('+' :: cs) cs

theorem exists_unsigned (cs : List Char) : ∃ ds, Unsigned cs ds := by
  by_cases h : cs.head? = some '+'
  · obtain ⟨rest, rfl⟩ := List.head?_eq_some_iff.mp h
    exact ⟨rest, .plus rest⟩
  · exact ⟨cs, .plain h⟩

theorem unsigned?_of_unsigned {cs ds : List Char} (h : Unsigned cs ds) (max : Nat) :
    unsigned? max cs = (natural? 10 ds).filter (· ≤ max) := by
  have hfilter (o : Option Nat) : (o.bind fun n ↦ if n ≤ max then some n else none) = o.filter (· ≤ max) := by
    cases o <;> simp [Option.filter]
  cases h with
  | plain hhead =>
    unfold unsigned?
    split
    · exact absurd rfl hhead
    · exact hfilter _
  | plus => exact hfilter _

end SelfHealing.Text
