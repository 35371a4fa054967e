import SelfHealing.Text.Numeral

/-!
Points of civil time in UTC and their RFC 3339 text.
-/

namespace SelfHealing.Time

open Text

structure Timestamp where
  seconds : Nat
  nanos : Nat
  deriving DecidableEq, Repr

instance : Inhabited Timestamp := ⟨⟨0, 0⟩⟩

structure Date where
  year : Nat
  month : Nat
  day : Nat
  deriving DecidableEq, Repr

/-- The Gregorian date a number of days after 1970-01-01. Years are counted from March, so that a leap
day is the last of its year, in eras of 146097 days. -/
def Date.ofDays (days : Nat) : Date :=
  let shifted := days + 719468
  let era := shifted / 146097
  let dayOfEra := shifted % 146097
  let yearOfEra := (dayOfEra - dayOfEra / 1460 + dayOfEra / 36524 - dayOfEra / 146096) / 365
  let dayOfYear := dayOfEra - (365 * yearOfEra + yearOfEra / 4 - yearOfEra / 100)
  let marchMonth := (5 * dayOfYear + 2) / 153
  let month := if marchMonth < 10 then marchMonth + 3 else marchMonth - 9
  let year := yearOfEra + era * 400 + (if month ≤ 2 then 1 else 0)
  ⟨year, month, dayOfYear - (153 * marchMonth + 2) / 5 + 1⟩

def fractionChars (nanos : Nat) : List Char :=
  if nanos = 0 then []
  else if nanos % 1000000 = 0 then '.' :: paddedDigits 10 3 (nanos / 1000000)
  else if nanos % 1000 = 0 then '.' :: paddedDigits 10 6 (nanos / 1000)
  else '.' :: paddedDigits 10 9 nanos

def Timestamp.rfc3339 (t : Timestamp) : String :=
  let date := Date.ofDays (t.seconds / 86400)
  let clock := t.seconds % 86400
  let two := paddedDigits 10 2
  String.ofList <|
    paddedDigits 10 4 date.year ++ '-' :: two date.month ++ '-' :: two date.day ++ 'T' ::
      two (clock / 3600) ++ ':' :: two (clock / 60 % 60) ++ ':' :: two (clock % 60) ++
      fractionChars t.nanos ++ "+00:00".toList

end SelfHealing.Time
