import SelfHealing.Proofs.Text.Numeral
import SelfHealing.Proofs.Time.Calendar

/-!
The text of a moment. Main statement: it is the date of its day in the calendar and the time of that day in UTC, each
number in its fixed width.
-/

namespace SelfHealing.Time

open Text

def Spells (cs : List Char) (width n : Nat) : Prop := cs.length = width ∧ natural? 10 cs = some n

theorem spells_paddedDigits {width n : Nat} (hwidth : 0 < width) (h : n < 10 ^ width) :
    Spells (paddedDigits 10 width n) width n :=
  ⟨length_paddedDigits hwidth h, natural?_paddedDigits (by decide) (by decide) width n⟩

theorem fractionChars_spells {nanos : Nat} (h : nanos < 1000000000) :
    fractionChars nanos = [] ∧ nanos = 0 ∨
      ∃ cs width n, fractionChars nanos = '.' :: cs ∧ Spells cs width n ∧ width ≤ 9 ∧ n * 10 ^ (9 - width) = nanos := by
  unfold fractionChars
  split
  · exact .inl ⟨rfl, ‹_›⟩
  · split
    · exact .inr ⟨_, 3, _, rfl, spells_paddedDigits (by decide) (by omega), by decide, by omega⟩
    · split
      · exact .inr ⟨_, 6, _, rfl, spells_paddedDigits (by decide) (by omega), by decide, by omega⟩
      · exact .inr ⟨_, 9, _, rfl, spells_paddedDigits (by decide) (by omega), by decide, by omega⟩

/-- The text of a moment before the year 10000 tells the date of its day, the time of the day and the fraction of the
second, as RFC 3339 has them in UTC. -/
theorem rfc3339_spells (t : Timestamp) (hyear : (Date.ofDays (t.seconds / 86400)).year < 10000)
    (hnanos : t.nanos < 1000000000) :
    ∃ year month day hour minute second fraction, ∃ h < 24, ∃ m < 60, ∃ s < 60,
      t.rfc3339 = String.ofList (year ++ '-' :: month ++ '-' :: day ++ 'T' :: hour ++ ':' :: minute ++ ':' :: second ++
        fraction ++ "+00:00".toList) ∧
      Spells year 4 (Date.ofDays (t.seconds / 86400)).year ∧ Spells month 2 (Date.ofDays (t.seconds / 86400)).month ∧
      Spells day 2 (Date.ofDays (t.seconds / 86400)).day ∧
      Spells hour 2 h ∧ Spells minute 2 m ∧ Spells second 2 s ∧ t.seconds % 86400 = 3600 * h + 60 * m + s ∧
      (fraction = [] ∧ t.nanos = 0 ∨
        ∃ cs width n, fraction = '.' :: cs ∧ Spells cs width n ∧ width ≤ 9 ∧ n * 10 ^ (9 - width) = t.nanos) := by
  obtain ⟨hmonth, hday⟩ := Date.valid_ofDays (t.seconds / 86400)
  have hlength := (Date.monthLength_bounds (Date.ofDays (t.seconds / 86400)).year
    (Date.ofDays (t.seconds / 86400)).month).2
  have hclock : t.seconds % 86400 < 86400 := Nat.mod_lt _ (by decide)
  refine ⟨_, _, _, _, _, _, _, t.seconds % 86400 / 3600, by omega, t.seconds % 86400 / 60 % 60, by omega,
    t.seconds % 86400 % 60, by omega, rfl, ?_, ?_, ?_, ?_, ?_, ?_, by omega, fractionChars_spells hnanos⟩
  · exact spells_paddedDigits (by decide) hyear
  · exact spells_paddedDigits (by decide) (by omega)
  · exact spells_paddedDigits (by decide) (by omega)
  · exact spells_paddedDigits (by decide) (by omega)
  · exact spells_paddedDigits (by decide) (by omega)
  · exact spells_paddedDigits (by decide) (by omega)

end SelfHealing.Time
