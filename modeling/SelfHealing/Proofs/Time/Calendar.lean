import SelfHealing.Time.Timestamp

/-!
The dates of days. Main statement: day zero is the first of January 1970, and the date of each next day is the next in
the Gregorian calendar.
-/

namespace SelfHealing.Time

def IsLeap (year : Nat) : Prop := year % 4 = 0 ∧ (year % 100 = 0 → year % 400 = 0)

instance (year : Nat) : Decidable (IsLeap year) := inferInstanceAs (Decidable (_ ∧ _))

def monthLength (year : Nat) : Nat → Nat
  | 2 => if IsLeap year then 29 else 28
  | 4 | 6 | 9 | 11 => 30
  | _ => 31

namespace Date

def next (d : Date) : Date :=
  if d.day < monthLength d.year d.month then { d with day := d.day + 1 }
  else if d.month < 12 then ⟨d.year, d.month + 1, 1⟩
  else ⟨d.year + 1, 1, 1⟩

section March

/-- The days from the first of March of the year zero to that of another year. -/
def march (year : Nat) : Nat := 365 * year + year / 4 - year / 100 + year / 400

def span (year : Nat) : Nat := if IsLeap (year + 1) then 366 else 365

def monthStart (k : Nat) : Nat := (153 * k + 2) / 5

def ofMarch (year days : Nat) : Date :=
  let k := (5 * days + 2) / 153
  let month := if k < 10 then k + 3 else k - 9
  ⟨year + (if month ≤ 2 then 1 else 0), month, days - monthStart k + 1⟩

theorem succ_div_eq (year k : Nat) : (year + 1) / k = year / k + if (year + 1) % k = 0 then 1 else 0 := by
  rw [Nat.succ_div]
  simp [Nat.dvd_iff_mod_eq_zero]

theorem march_succ (year : Nat) : march (year + 1) = march year + span year := by
  have hle : year / 100 ≤ year / 4 := Nat.div_le_div_left (by decide) (by decide)
  have hm400 : (year + 1) % 400 = 0 → (year + 1) % 100 = 0 := by omega
  have hm100 : (year + 1) % 100 = 0 → (year + 1) % 4 = 0 := by omega
  unfold march span IsLeap
  rw [succ_div_eq year 4, succ_div_eq year 100, succ_div_eq year 400]
  by_cases h4 : (year + 1) % 4 = 0 <;> by_cases h100 : (year + 1) % 100 = 0 <;>
    by_cases h400 : (year + 1) % 400 = 0 <;> simp_all <;> omega

theorem span_le (year : Nat) : span year ≤ 366 := by
  unfold span
  split <;> decide

theorem ofMarch_eq {k days : Nat} (year : Nat) (hstart : monthStart k ≤ days) (hend : days < monthStart (k + 1)) :
    ofMarch year days =
      ⟨year + (if (if k < 10 then k + 3 else k - 9) ≤ 2 then 1 else 0), if k < 10 then k + 3 else k - 9,
        days - monthStart k + 1⟩ := by
  have hk : (5 * days + 2) / 153 = k := by
    unfold monthStart at hstart hend
    omega
  unfold ofMarch
  rw [hk]

theorem monthLength_eq {k : Nat} (hk : k < 11) (year : Nat) :
    monthLength year (if k < 10 then k + 3 else k - 9) = monthStart (k + 1) - monthStart k := by
  have hcases : k = 0 ∨ k = 1 ∨ k = 2 ∨ k = 3 ∨ k = 4 ∨ k = 5 ∨ k = 6 ∨ k = 7 ∨ k = 8 ∨ k = 9 ∨ k = 10 := by omega
  rcases hcases with rfl | rfl | rfl | rfl | rfl | rfl | rfl | rfl | rfl | rfl | rfl <;> rfl

theorem monthLength_two (year : Nat) : monthLength (year + 1) 2 = span year - monthStart 11 := by
  unfold span
  by_cases h : IsLeap (year + 1)
  · rw [if_pos h]
    exact if_pos h
  · rw [if_neg h]
    exact if_neg h

theorem next_of_lt {d : Date} (h : d.day < monthLength d.year d.month) : d.next = { d with day := d.day + 1 } :=
  if_pos h

theorem ofMarch_next {year days : Nat} (h : days + 1 < span year) :
    (ofMarch year days).next = ofMarch year (days + 1) := by
  have hspan := span_le year
  obtain ⟨k, hstart, hend, hk⟩ : ∃ k, monthStart k ≤ days ∧ days < monthStart (k + 1) ∧ k < 12 :=
    ⟨(5 * days + 2) / 153, by unfold monthStart; omega, by unfold monthStart; omega, by omega⟩
  rw [ofMarch_eq year hstart hend]
  by_cases hsame : days + 1 < monthStart (k + 1)
  · rw [ofMarch_eq year (Nat.le_succ_of_le hstart) hsame, next_of_lt]
    · simp only [Date.mk.injEq, true_and]
      omega
    · by_cases hlast : k = 11
      · -- February is the last month, and what is left of the year is its length.
        subst hlast
        change days - monthStart 11 + 1 < monthLength (year + 1) 2
        rw [monthLength_two]
        omega
      · rw [monthLength_eq (by omega)]
        dsimp only
        omega
  · have hnext : days + 1 = monthStart (k + 1) := by omega
    have hk' : k < 11 := Nat.lt_of_not_le fun hle ↦ by
      obtain rfl : k = 11 := by omega
      have hend' : monthStart (11 + 1) = 367 := rfl
      omega
    have hafter : monthStart (k + 1) < monthStart (k + 2) := by unfold monthStart; omega
    rw [ofMarch_eq year (Nat.le_of_eq hnext.symm) (hnext ▸ hafter), next, if_neg]
    · -- Only December is followed by a month of the next year.
      have hcases : k < 9 ∨ k = 9 ∨ k = 10 := by omega
      rcases hcases with hbefore | rfl | rfl
      · have hlt : k < 10 := by omega
        have hlt' : k + 1 < 10 := by omega
        have hmonth : k + 3 < 12 := by omega
        have hlate : ¬k + 3 ≤ 2 := by omega
        have hlate' : ¬k + 1 + 3 ≤ 2 := by omega
        simp only [hlt, hlt', hmonth, hlate, hlate', if_true, if_false, Nat.sub_self, hnext]
      · simp [hnext]
      · simp [hnext]
    · rw [monthLength_eq hk']
      dsimp only
      omega

theorem ofMarch_last {year days : Nat} (h : days + 1 = span year) :
    (ofMarch year days).next = ofMarch (year + 1) 0 := by
  have hspan : span year = 365 ∨ span year = 366 := by unfold span; split <;> simp
  have hstart : monthStart 11 = 337 := rfl
  have hend : monthStart (11 + 1) = 367 := rfl
  rw [ofMarch_eq (k := 11) year (by omega) (by omega), next, if_neg]
  · rfl
  · change ¬days - monthStart 11 + 1 < monthLength (year + 1) 2
    rw [monthLength_two]
    omega

end March

theorem yearOfEra_eq {f q j d e : Nat} (hf : f < 4) (hq : q < 25) (hj : j < 4) (hd : d < 366)
    (hlast : d = 365 → j = 3 ∧ (q = 24 → f = 3)) (he : e = 36524 * f + 1461 * q + 365 * j + d) :
    (e - e / 1460 + e / 36524 - e / 146096) / 365 = 100 * f + 4 * q + j := by
  -- The last day of an era is the only one that the last correction is for.
  by_cases hend : e = 146096
  · subst hend
    omega
  · have hfew : e < 146096 := by omega
    have h2 : e / 146096 = 0 := Nat.div_eq_of_lt hfew
    have h1 : e / 36524 = f := by omega
    have h0 : e / 1460 = 25 * f + q + (24 * f + q + 365 * j + d) / 1460 := by omega
    have hextra : (24 * f + q + 365 * j + d) / 1460 ≤ d ∧ d - (24 * f + q + 365 * j + d) / 1460 < 365 := by omega
    rw [h2, h1, h0]
    generalize (24 * f + q + 365 * j + d) / 1460 = extra at *
    omega

theorem ofDays_eq {n year days : Nat} (h : days < span year) (hn : n + 719468 = march year + days) :
    ofDays n = ofMarch year days := by
  obtain ⟨era, f, q, j, rfl, hf, hq, hj⟩ :
      ∃ era f q j, year = 400 * era + (100 * f + 4 * q + j) ∧ f < 4 ∧ q < 25 ∧ j < 4 :=
    ⟨year / 400, year % 400 / 100, year % 100 / 4, year % 4, by omega, by omega, by omega, by omega⟩
  have h4 : (100 * f + 4 * q + j) / 4 = 25 * f + q := by omega
  have h100 : (100 * f + 4 * q + j) / 100 = f := by omega
  have hmarch : march (400 * era + (100 * f + 4 * q + j)) = 146097 * era + (36524 * f + 1461 * q + 365 * j) := by
    have h4' : (400 * era + (100 * f + 4 * q + j)) / 4 = 100 * era + (25 * f + q) := by omega
    have h100' : (400 * era + (100 * f + 4 * q + j)) / 100 = 4 * era + f := by omega
    have h400' : (400 * era + (100 * f + 4 * q + j)) / 400 = era := by omega
    rw [march, h4', h100', h400']
    omega
  have hdays : days < 366 := Nat.lt_of_lt_of_le h (span_le _)
  have hleap : days = 365 → j = 3 ∧ (q = 24 → f = 3) := by
    intro hlong
    have hl : IsLeap (400 * era + (100 * f + 4 * q + j) + 1) := by
      refine Decidable.of_not_not fun hl ↦ ?_
      rw [hlong, span, if_neg hl] at h
      exact absurd h (by decide)
    obtain ⟨hfour, hhundred⟩ := hl
    clear hmarch hn h
    exact ⟨by omega, by omega⟩
  have hera : 36524 * f + 1461 * q + 365 * j + days < 146097 := by
    clear hmarch hn h h4 h100
    omega
  rw [hmarch, Nat.add_assoc] at hn
  have hdiv : (n + 719468) / 146097 = era := by
    rw [hn, Nat.mul_add_div (by decide), Nat.div_eq_of_lt hera, Nat.add_zero]
  have hmod : (n + 719468) % 146097 = 36524 * f + 1461 * q + 365 * j + days := by
    rw [hn, Nat.mul_add_mod, Nat.mod_eq_of_lt hera]
  have hyear := yearOfEra_eq hf hq hj hdays hleap rfl
  have hday : 36524 * f + 1461 * q + 365 * j + days -
      (365 * (100 * f + 4 * q + j) + (100 * f + 4 * q + j) / 4 - (100 * f + 4 * q + j) / 100) = days := by
    rw [h4, h100]
    omega
  simp only [ofDays, hdiv, hmod, hyear, hday]
  rw [ofMarch, Nat.add_comm (400 * era), Nat.mul_comm 400]
  rfl

theorem exists_march (n : Nat) : ∃ year days, days < span year ∧ n + 719468 = march year + days := by
  induction n with
  | zero => exact ⟨1969, 306, by decide, by decide⟩
  | succ n ih =>
    obtain ⟨year, days, hdays, hn⟩ := ih
    by_cases hlast : days + 1 = span year
    · exact ⟨year + 1, 0, by unfold span; split <;> decide, by rw [march_succ]; omega⟩
    · exact ⟨year, days + 1, by omega, by omega⟩

/-- Days are given the dates of the Gregorian calendar, one after the other from the first of January 1970. -/
theorem ofDays_next : ofDays 0 = ⟨1970, 1, 1⟩ ∧ ∀ n, ofDays (n + 1) = (ofDays n).next := by
  refine ⟨by decide, fun n ↦ ?_⟩
  obtain ⟨year, days, hdays, hn⟩ := exists_march n
  rw [ofDays_eq hdays hn]
  by_cases hlast : days + 1 = span year
  · have hfirst : 0 < span (year + 1) := by unfold span; split <;> decide
    rw [ofMarch_last hlast, ofDays_eq hfirst (by rw [march_succ]; omega)]
  · rw [ofMarch_next (by omega), ofDays_eq (by omega : days + 1 < span year) (by omega)]

/-- The leap day of a year. -/
example : ofDays 19782 = ⟨2024, 2, 29⟩ := by decide

structure Valid (d : Date) : Prop where
  month : 1 ≤ d.month ∧ d.month ≤ 12
  day : 1 ≤ d.day ∧ d.day ≤ monthLength d.year d.month

theorem monthLength_bounds (year month : Nat) : 1 ≤ monthLength year month ∧ monthLength year month ≤ 31 := by
  fun_cases monthLength year month <;> decide

theorem Valid.next {d : Date} (h : d.Valid) : d.next.Valid := by
  obtain ⟨hmonth, hday⟩ := h
  unfold Date.next
  by_cases hlast : d.day < monthLength d.year d.month
  · rw [if_pos hlast]
    exact ⟨hmonth, Nat.le_add_left 1 d.day, hlast⟩
  · rw [if_neg hlast]
    by_cases hyear : d.month < 12
    · rw [if_pos hyear]
      exact ⟨⟨Nat.le_add_left 1 d.month, hyear⟩, Nat.le_refl 1, (monthLength_bounds ..).1⟩
    · rw [if_neg hyear]
      exact ⟨⟨Nat.le_refl 1, Nat.le_add_left 1 11⟩, Nat.le_refl 1, (monthLength_bounds ..).1⟩

theorem valid_ofDays (n : Nat) : (ofDays n).Valid := by
  induction n with
  | zero => exact ⟨by decide, by decide⟩
  | succ n ih =>
    rw [ofDays_next.2]
    exact ih.next

end Date

end SelfHealing.Time
