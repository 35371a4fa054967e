import SelfHealing.Proofs.Text.Blank
import SelfHealing.Proofs.Text.Numeral
import SelfHealing.Registry.Credential

/-!
The port of a credential. Main statement: an empty text is the standard port, a text with a decimal number of 16 bits in
it is that port, also with a plus sign in front of the number and with white space around it, and any other text is
refused as it was given.
-/

namespace SelfHealing.Credential

open Net Text

/-- What has to be the digits of a port: a text without the white space around it and without a plus sign. -/
def PortDigits (text : String) (ds : List Char) : Prop := ∃ core, Trimmed text.toList core ∧ Unsigned core ds

inductive TellsPort : String → Nat → Prop
  | unset : TellsPort "" 22
  | number {text : String} {ds : List Char} {n : Nat} :
      PortDigits text ds → DecimalDigits n ds → n ≤ 65535 → TellsPort text n

inductive TellsNoPort : String → Prop
  /-- There is white space only, or a plus sign alone. -/
  | missing {text : String} : text ≠ "" → PortDigits text [] → TellsNoPort text
  /-- There is something that is no digit, as a minus sign or a second plus sign. -/
  | foreign {text : String} {ds : List Char} {c : Char} :
      PortDigits text ds → c ∈ ds → c.isDigit = false → TellsNoPort text
  /-- There is a number of more than 16 bits. -/
  | excessive {text : String} {ds : List Char} {n : Nat} :
      PortDigits text ds → DecimalDigits n ds → 65535 < n → TellsNoPort text

variable {text : String} {ds : List Char} {n : Nat}

theorem exists_portDigits (text : String) : ∃ ds, PortDigits text ds :=
  (exists_unsigned _).imp fun _ hds ↦ ⟨_, trimmed_trimChars _, hds⟩

theorem PortDigits.ne_empty (h : PortDigits text ds) (hds : ds ≠ []) : text ≠ "" := by
  rintro rfl
  obtain ⟨core, hcore, hunsigned⟩ := h
  rw [hcore.eq_nil_iff.mpr (List.nil_subset _)] at hunsigned
  cases hunsigned
  exact hds rfl

theorem portNumber?_of_digits (h : PortDigits text ds) (hne : text ≠ "") :
    portNumber? text = (natural? 10 ds).filter (· ≤ 65535) := by
  obtain ⟨core, hcore, hds⟩ := h
  rw [trimmed_iff.mp hcore] at hds
  rw [portNumber?, if_neg (by simpa using hne), unsigned?_of_unsigned hds]
  rfl

theorem portNumber?_eq_some_iff : portNumber? text = some n ↔ TellsPort text n := by
  constructor
  · intro h
    by_cases hne : text = ""
    · subst hne
      obtain rfl : 22 = n := Option.some.inj h
      exact .unset
    · obtain ⟨ds, hds⟩ := exists_portDigits text
      rw [portNumber?_of_digits hds hne, Option.filter_eq_some_iff] at h
      exact .number hds (natural?_ten_eq_some_iff.mp h.1) (of_decide_eq_true h.2)
  · intro h
    cases h with
    | unset => rfl
    | number hds hdecimal hle =>
      rw [portNumber?_of_digits hds (hds.ne_empty hdecimal.nonempty), natural?_ten_eq_some_iff.mpr hdecimal]
      exact Option.filter_eq_some_iff.mpr ⟨rfl, decide_eq_true hle⟩

theorem tellsNoPort_of_digits (h : PortDigits text ds) (hne : text ≠ "")
    (hnone : (natural? 10 ds).filter (· ≤ 65535) = none) : TellsNoPort text := by
  rcases hread : natural? 10 ds with _ | n
  · obtain rfl | ⟨c, hc, hdigit⟩ := natural?_ten_eq_none_iff.mp hread
    · exact .missing hne h
    · exact .foreign h hc hdigit
  · rw [hread, Option.filter_some] at hnone
    exact .excessive h (natural?_ten_eq_some_iff.mp hread) (by simpa using hnone)

theorem portNumber?_eq_none_iff : portNumber? text = none ↔ TellsNoPort text := by
  constructor
  · intro h
    have hne : text ≠ "" := by
      rintro rfl
      cases h
    obtain ⟨ds, hds⟩ := exists_portDigits text
    exact tellsNoPort_of_digits hds hne (by rwa [portNumber?_of_digits hds hne] at h)
  · intro h
    cases h with
    | missing hne hds =>
      rw [portNumber?_of_digits hds hne]
      rfl
    | foreign hds hc hdigit =>
      rw [portNumber?_of_digits hds (hds.ne_empty (List.ne_nil_of_mem hc)),
        natural?_ten_eq_none_iff.mpr (.inr ⟨_, hc, hdigit⟩)]
      rfl
    | excessive hds hdecimal hlt =>
      rw [portNumber?_of_digits hds (hds.ne_empty hdecimal.nonempty), natural?_ten_eq_some_iff.mpr hdecimal]
      simpa using hlt

/-- The two kinds of text are all there are, and no text is of both. -/
theorem tellsNoPort_iff : TellsNoPort text ↔ ∀ n, ¬TellsPort text n := by
  simp only [← portNumber?_eq_none_iff, ← portNumber?_eq_some_iff, Option.eq_none_iff_forall_ne_some, ne_eq]

/-- A refusal quotes the text untrimmed. -/
theorem portFor_decided (c : Credential) (host : Address) :
    (∀ n, c.portFor host = .ok n ↔ TellsPort c.port n) ∧
      (TellsNoPort c.port ↔ ∀ n, ¬TellsPort c.port n) ∧
      ∀ e, c.portFor host = .error e ↔
        TellsNoPort c.port ∧ e = .invalidCredential host ("invalid port '" ++ c.port ++ "'") := by
  rw [portFor]
  cases hread : portNumber? c.port with
  | none =>
    have hno := portNumber?_eq_none_iff.mp hread
    refine ⟨fun n ↦ ⟨nofun, fun h ↦ absurd h (tellsNoPort_iff.mp hno n)⟩, tellsNoPort_iff, fun e ↦ ?_⟩
    rw [Except.error.injEq, invalidPort, and_iff_right hno, eq_comm]
  | some n =>
    have hport := portNumber?_eq_some_iff.mp hread
    refine ⟨fun m ↦ ?_, tellsNoPort_iff, fun e ↦ ⟨nofun, fun ⟨hno, _⟩ ↦ absurd hport (tellsNoPort_iff.mp hno n)⟩⟩
    rw [← portNumber?_eq_some_iff, hread, Except.ok.injEq, Option.some.injEq]

example : ["22", "\u2003+0065535\n"].map portNumber? = [some 22, some 65535] := by decide

example : ["\u2003", "+", "-", "-0", "++1", "2 2", "65536", "000099999999999999999999"].filterMap portNumber? = [] := by
  decide

end SelfHealing.Credential
