import Mathlib.Data.List.Infix
import SelfHealing.Text.Utf8

/-!
Octets read as text. Main statement: whatever the octets are, every character that is written out is read as itself, and
what else there is falls into maximal subparts, each read as one replacement.
-/

namespace SelfHealing.Text

/-- The octets begin a character, or are all of it. -/
def Begins (part : Octets) : Prop := ∃ c, part <+: encodeChar c

/-- At the front of some octets that no character stands at: as many as begin a character, and one at least. -/
structure MaximalSubpart (part rest : Octets) : Prop where
  nonempty : part ≠ []
  unfinished : ∀ c, ¬encodeChar c <+: part ++ rest
  begun : part.length = 1 ∨ Begins part
  longest : ∀ longer, longer <+: part ++ rest → Begins longer → longer.length ≤ part.length

inductive Decoding : Octets → List Char → Prop
  | nil : Decoding [] []
  | character (c : Char) {rest : Octets} {out : List Char} : Decoding rest out → Decoding (encodeChar c ++ rest) (c :: out)
  | subpart {part rest : Octets} {out : List Char} :
      MaximalSubpart part rest → Decoding rest out → Decoding (part ++ rest) (replacement :: out)

/-! The character under way. -/

namespace Partial

variable {p q : Partial} {b : UInt8} {c : Char} {more tail rest : Octets}

def Takes (p : Partial) (b : UInt8) : Prop := p.low ≤ b ∧ b ≤ p.high

def sum (p : Partial) (b : UInt8) : Nat := p.value * 0x40 + (b.toNat - 0x80)

def next (p : Partial) (b : UInt8) : Partial := ⟨p.needed - 1, 0x80, 0xbf, p.sum b⟩

structure Open (p : Partial) : Prop where
  low : 0x80 ≤ p.low
  range : p.low ≤ p.high

theorem open_next (p : Partial) (b : UInt8) : (p.next b).Open :=
  ⟨show (0x80 : UInt8) ≤ 0x80 by decide, show (0x80 : UInt8) ≤ 0xbf by decide⟩

inductive Finishes : Partial → Octets → Char → Prop
  | last {p : Partial} {b : UInt8} : p.Takes b → p.needed ≤ 1 → Finishes p [b] (Char.ofNat (p.sum b))
  | more {p : Partial} {b : UInt8} {rest : Octets} {c : Char} :
      p.Takes b → 1 < p.needed → Finishes (p.next b) rest c → Finishes p (b :: rest) c

inductive Continues : Partial → Octets → Partial → Prop
  | refl (p : Partial) : Continues p [] p
  | step {p q : Partial} {b : UInt8} {rest : Octets} :
      p.Takes b → 1 < p.needed → Continues (p.next b) rest q → Continues p (b :: rest) q

theorem Continues.isOpen (h : Continues p more q) (hp : p.Open) : q.Open := by
  induction h with
  | refl => exact hp
  | step _ _ _ ih => exact ih (open_next _ _)

theorem Continues.finishes (h : Continues p more q) (hq : Finishes q tail c) : Finishes p (more ++ tail) c := by
  induction h with
  | refl => exact hq
  | step htakes hneeded _ ih => exact .more htakes hneeded (ih hq)

theorem Finishes.split (h : Finishes p (more ++ tail) c) (htail : tail ≠ []) : ∃ q, Continues p more q := by
  induction more generalizing p with
  | nil => exact ⟨p, .refl p⟩
  | cons b more ih =>
    generalize hwhole : b :: more ++ tail = whole at h
    cases h with
    | last => simp_all
    | more htakes hneeded hrest =>
      obtain ⟨rfl, rfl⟩ := List.cons.inj hwhole
      obtain ⟨q, hq⟩ := ih hrest
      exact ⟨q, .step htakes hneeded hq⟩

theorem exists_finishes (hp : p.Open) : ∃ tail c, Finishes p tail c := by
  generalize hn : p.needed = n
  induction n generalizing p with
  | zero => exact ⟨_, _, .last ⟨UInt8.le_refl _, hp.range⟩ (by omega)⟩
  | succ n ih =>
    have htakes : p.Takes p.low := ⟨UInt8.le_refl _, hp.range⟩
    by_cases hone : p.needed ≤ 1
    · exact ⟨_, _, .last htakes hone⟩
    · obtain ⟨tail, c, h⟩ := ih (open_next p p.low) (show p.needed - 1 = n by omega)
      exact ⟨_, c, .more htakes (by omega) h⟩

/-- Where the next octet is not taken, no more can be made of what comes. -/
theorem Continues.longest (h : Continues p more q) (hstop : ∀ b ∈ rest.head?, ¬q.Takes b) {other : Octets}
    (hother : other <+: more ++ rest) :
    (∀ c, ¬Finishes p other c) ∧ ∀ r, Continues p other r → other.length ≤ more.length := by
  induction h generalizing other with
  | refl p =>
    cases other with
    | nil => exact ⟨nofun, fun _ _ ↦ Nat.le_refl 0⟩
    | cons b other =>
      obtain ⟨after, rfl⟩ := hother
      have hrefused : ¬p.Takes b := hstop b rfl
      refine ⟨fun c hc ↦ ?_, fun r hr ↦ ?_⟩
      · cases hc <;> contradiction
      · cases hr
        contradiction
  | step htakes hneeded _ ih =>
    cases other with
    | nil => exact ⟨nofun, fun _ _ ↦ Nat.zero_le _⟩
    | cons b other =>
      obtain ⟨rfl, hrest⟩ := List.cons_prefix_cons.mp hother
      obtain ⟨hfinishes, hcontinues⟩ := ih hstop hrest
      refine ⟨fun c hc ↦ ?_, fun r hr ↦ ?_⟩
      · cases hc with
        | last _ hone => omega
        | more _ _ hc => exact hfinishes c hc
      · cases hr with
        | step _ _ hr => exact Nat.succ_le_succ (hcontinues r hr)

/-- Some octets either finish the character, or stop where the next one is not taken. -/
theorem scan (p : Partial) (bytes : Octets) :
    (∃ tail rest c, bytes = tail ++ rest ∧ Finishes p tail c) ∨
      ∃ more rest q, bytes = more ++ rest ∧ Continues p more q ∧ ∀ b ∈ rest.head?, ¬q.Takes b := by
  induction bytes generalizing p with
  | nil => exact .inr ⟨[], [], p, rfl, .refl p, by simp⟩
  | cons b bytes ih =>
    by_cases htakes : p.Takes b
    · by_cases hneeded : p.needed ≤ 1
      · exact .inl ⟨[b], bytes, _, rfl, .last htakes hneeded⟩
      · obtain ⟨tail, rest, c, rfl, h⟩ | ⟨more, rest, q, rfl, h, hstop⟩ := ih (p.next b)
        · exact .inl ⟨b :: tail, rest, c, rfl, .more htakes (by omega) h⟩
        · exact .inr ⟨b :: more, rest, q, rfl, .step htakes (by omega) h, hstop⟩
    · exact .inr ⟨[], b :: bytes, p, rfl, .refl p, by simpa using htakes⟩

end Partial

open Partial

/-! Reading as a run over the character under way. -/

section Runs

variable {p q : Partial} {c : Char} {more tail : Octets}

theorem decodeStep_last {b : UInt8} (htakes : p.Takes b) (hneeded : p.needed ≤ 1) :
    decodeStep (some p) b = ([Char.ofNat (p.sum b)], none) := by
  have hrange : p.low ≤ b ∧ b ≤ p.high := htakes
  rw [decodeStep, if_pos hrange]
  exact if_pos hneeded

theorem decodeStep_more {b : UInt8} (htakes : p.Takes b) (hneeded : 1 < p.needed) :
    decodeStep (some p) b = ([], some (p.next b)) := by
  have hrange : p.low ≤ b ∧ b ≤ p.high := htakes
  rw [decodeStep, if_pos hrange]
  exact if_neg (Nat.not_le.mpr hneeded)

theorem decodeFrom_finishes (h : Finishes p tail c) (rest : Octets) :
    decodeFrom (some p) (tail ++ rest) = c :: decodeFrom none rest := by
  induction h with
  | last htakes hneeded =>
    rw [List.singleton_append, decodeFrom, decodeStep_last htakes hneeded]
    rfl
  | more htakes hneeded _ ih =>
    rw [List.cons_append, decodeFrom, decodeStep_more htakes hneeded]
    exact ih

theorem decodeFrom_continues (h : Continues p more q) (rest : Octets) :
    decodeFrom (some p) (more ++ rest) = decodeFrom (some q) rest := by
  induction h with
  | refl => rfl
  | step htakes hneeded _ ih =>
    rw [List.cons_append, decodeFrom, decodeStep_more htakes hneeded]
    exact ih

theorem decodeFrom_stop {rest : Octets} (hstop : ∀ b ∈ rest.head?, ¬p.Takes b) :
    decodeFrom (some p) rest = replacement :: decodeFrom none rest := by
  cases rest with
  | nil => rfl
  | cons b rest =>
    have hrefused : ¬(p.low ≤ b ∧ b ≤ p.high) := hstop b rfl
    simp [decodeFrom, decodeStep, hrefused]

end Runs

/-! Characters as they are written. -/

section Written

variable {p : Partial} {b : UInt8} {c : Char} {tail : Octets}

theorem firstOctet_eq_start : firstOctet b = .start p ↔
    (0xc2 ≤ b.toNat ∧ b.toNat < 0xe0 ∧ p = ⟨1, 0x80, 0xbf, b.toNat - 0xc0⟩) ∨
    (0xe0 ≤ b.toNat ∧ b.toNat < 0xf0 ∧
      p = ⟨2, if b.toNat = 0xe0 then 0xa0 else 0x80, if b.toNat = 0xed then 0x9f else 0xbf, b.toNat - 0xe0⟩) ∨
    (0xf0 ≤ b.toNat ∧ b.toNat < 0xf5 ∧
      p = ⟨3, if b.toNat = 0xf0 then 0x90 else 0x80, if b.toNat = 0xf4 then 0x8f else 0xbf, b.toNat - 0xf0⟩) := by
  have heq (n : UInt8) : (b == n) = decide (b.toNat = n.toNat) := by
    rw [Bool.eq_iff_iff]
    simp [UInt8.toNat_inj]
  unfold firstOctet
  simp only [UInt8.lt_iff_toNat_lt, heq]
  simp only [UInt8.reduceToNat, decide_eq_true_eq]
  grind

theorem firstOctet_eq_ascii : firstOctet b = .ascii c ↔ b.toNat < 0x80 ∧ c = Char.ofNat b.toNat := by
  unfold firstOctet
  simp only [UInt8.lt_iff_toNat_lt]
  simp only [UInt8.reduceToNat]
  grind

theorem finishes_last (hone : p.needed = 1) : Finishes p tail c ↔
    ∃ t, tail = [t] ∧ p.Takes t ∧ c = Char.ofNat (p.sum t) := by
  constructor
  · intro h
    cases h with
    | last htakes _ => exact ⟨_, rfl, htakes, rfl⟩
    | more _ hneeded _ => omega
  · rintro ⟨t, rfl, htakes, hc⟩
    rw [hc]
    exact .last htakes (by omega)

theorem finishes_more (hmore : 1 < p.needed) : Finishes p tail c ↔
    ∃ t rest, tail = t :: rest ∧ p.Takes t ∧ Finishes (p.next t) rest c := by
  constructor
  · intro h
    cases h with
    | last _ hneeded => omega
    | more htakes _ hrest => exact ⟨_, _, rfl, htakes, hrest⟩
  · rintro ⟨t, rest, rfl, htakes, hrest⟩
    exact .more htakes hmore hrest

theorem toNat_ofNat_of_valid {n : Nat} (h : n < 0xd800 ∨ 0xdfff < n ∧ n < 0x110000) : (Char.ofNat n).toNat = n := by
  have hvalid : n.isValidChar := h
  rw [Char.ofNat, dif_pos hvalid]
  rfl

theorem toNat_bounds (c : Char) : c.toNat < 0xd800 ∨ 0xdfff < c.toNat ∧ c.toNat < 0x110000 := c.valid

theorem toNat_encodeChar (c : Char) : (encodeChar c).map UInt8.toNat =
    if c.toNat < 0x80 then [c.toNat]
    else if c.toNat < 0x800 then [0xc0 + c.toNat / 0x40, 0x80 + c.toNat % 0x40]
    else if c.toNat < 0x10000 then
      [0xe0 + c.toNat / 0x1000, 0x80 + c.toNat / 0x40 % 0x40, 0x80 + c.toNat % 0x40]
    else
      [0xf0 + c.toNat / 0x40000, 0x80 + c.toNat / 0x1000 % 0x40, 0x80 + c.toNat / 0x40 % 0x40,
        0x80 + c.toNat % 0x40] := by
  have hc := toNat_bounds c
  have hoctet {n : Nat} (h : n < 256) : n.toUInt8.toNat = n := Nat.mod_eq_of_lt h
  unfold encodeChar
  simp only [show c.val.toNat = c.toNat from rfl]
  split_ifs <;> simp (disch := omega) only [List.map_cons, List.map_nil, hoctet]

theorem takes_iff : p.Takes b ↔ p.low.toNat ≤ b.toNat ∧ b.toNat ≤ p.high.toNat := by
  rw [Takes, UInt8.le_iff_toNat_le, UInt8.le_iff_toNat_le]

theorem sum_mk (n : Nat) (low high : UInt8) (v : Nat) (b : UInt8) :
    Partial.sum ⟨n, low, high, v⟩ b = v * 0x40 + (b.toNat - 0x80) := by
  delta sum
  with_reducible rfl

theorem encodeChar_of_finishes (hp : firstOctet b = .start p) (h : Finishes p tail c) : encodeChar c = b :: tail := by
  refine List.map_injective_iff.mpr (fun _ _ ↦ UInt8.toNat_inj.mp) ?_
  rw [toNat_encodeChar]
  obtain ⟨hlow, hhigh, rfl⟩ | ⟨hlow, hhigh, rfl⟩ | ⟨hlow, hhigh, rfl⟩ := firstOctet_eq_start.mp hp
  · obtain ⟨t, rfl, ht, hc⟩ := (finishes_last rfl).mp h
    simp only [takes_iff, UInt8.reduceToNat] at ht
    have hvalue : c.toNat = (b.toNat - 0xc0) * 0x40 + (t.toNat - 0x80) := by
      rw [hc, sum_mk, toNat_ofNat_of_valid (by omega)]
    rw [if_neg (by omega), if_pos (by omega)]
    simp only [List.map_cons, List.map_nil, List.cons.injEq, and_true]
    omega
  · obtain ⟨t, rest, rfl, ht, hrest⟩ := (finishes_more (by simp)).mp h
    obtain ⟨u, rfl, hu, hc⟩ := (finishes_last rfl).mp hrest
    simp only [takes_iff, next, apply_ite UInt8.toNat, UInt8.reduceToNat] at ht hu
    have hsum : (0xe0 < b.toNat ∨ 0xa0 ≤ t.toNat) ∧ (b.toNat ≠ 0xed ∨ t.toNat ≤ 0x9f) ∧
        0x80 ≤ t.toNat ∧ t.toNat ≤ 0xbf := by
      split_ifs at ht <;> omega
    have hvalue : c.toNat = ((b.toNat - 0xe0) * 0x40 + (t.toNat - 0x80)) * 0x40 + (u.toNat - 0x80) := by
      rw [hc, next, sum_mk, sum_mk, toNat_ofNat_of_valid (by omega)]
    rw [if_neg (by omega), if_neg (by omega), if_pos (by omega)]
    simp only [List.map_cons, List.map_nil, List.cons.injEq, and_true]
    omega
  · obtain ⟨t, rest, rfl, ht, hrest⟩ := (finishes_more (by simp)).mp h
    obtain ⟨u, rest, rfl, hu, hrest⟩ := (finishes_more (by simp [next])).mp hrest
    obtain ⟨w, rfl, hw, hc⟩ := (finishes_last rfl).mp hrest
    simp only [takes_iff, next, apply_ite UInt8.toNat, UInt8.reduceToNat] at ht hu hw
    have hsum : (0xf0 < b.toNat ∨ 0x90 ≤ t.toNat) ∧ (b.toNat ≠ 0xf4 ∨ t.toNat ≤ 0x8f) ∧
        0x80 ≤ t.toNat ∧ t.toNat ≤ 0xbf := by
      split_ifs at ht <;> omega
    have hvalue : c.toNat = (((b.toNat - 0xf0) * 0x40 + (t.toNat - 0x80)) * 0x40 + (u.toNat - 0x80)) * 0x40 +
        (w.toNat - 0x80) := by
      rw [hc, next, next, sum_mk, sum_mk, sum_mk, toNat_ofNat_of_valid (by omega)]
    rw [if_neg (by omega), if_neg (by omega), if_neg (by omega)]
    simp only [List.map_cons, List.map_nil, List.cons.injEq, and_true]
    omega

theorem finishes_of_encodeChar (h : encodeChar c = b :: tail) :
    firstOctet b = .ascii c ∧ tail = [] ∨ ∃ p, firstOctet b = .start p ∧ Finishes p tail c := by
  have hc := toNat_bounds c
  have hcodes : (b :: tail).map UInt8.toNat = (encodeChar c).map UInt8.toNat := by rw [h]
  have hofNat {n : Nat} (hn : c.toNat = n) : c = Char.ofNat n := by rw [← hn, Char.ofNat_toNat]
  rw [toNat_encodeChar] at hcodes
  split_ifs at hcodes with hone htwo hthree <;>
    simp only [List.map_cons, List.cons.injEq, List.map_eq_nil_iff, List.map_eq_cons_iff] at hcodes
  · obtain ⟨hb, rfl⟩ := hcodes
    exact .inl ⟨firstOctet_eq_ascii.mpr ⟨by omega, hofNat hb.symm⟩, rfl⟩
  · obtain ⟨hb, t, _, rfl, ht, rfl⟩ := hcodes
    refine .inr ⟨_, firstOctet_eq_start.mpr (.inl ⟨by omega, by omega, rfl⟩), (finishes_last rfl).mpr ⟨t, rfl, ?_, ?_⟩⟩
    · simp only [takes_iff, UInt8.reduceToNat]
      omega
    · exact hofNat (by rw [sum_mk]; omega)
  · obtain ⟨hb, t, _, rfl, ht, u, _, rfl, hu, rfl⟩ := hcodes
    refine .inr ⟨_, firstOctet_eq_start.mpr (.inr (.inl ⟨by omega, by omega, rfl⟩)),
      .more ?_ (by simp) ((finishes_last rfl).mpr ⟨u, rfl, ?_, ?_⟩)⟩
    · simp only [takes_iff, apply_ite UInt8.toNat, UInt8.reduceToNat]
      constructor <;> split_ifs <;> omega
    · simp only [takes_iff, next, UInt8.reduceToNat]
      omega
    · exact hofNat (by rw [next, sum_mk, sum_mk]; omega)
  · obtain ⟨hb, t, _, rfl, ht, u, _, rfl, hu, w, _, rfl, hw, rfl⟩ := hcodes
    refine .inr ⟨_, firstOctet_eq_start.mpr (.inr (.inr ⟨by omega, by omega, rfl⟩)),
      .more ?_ (by simp) (.more ?_ (by simp [next]) ((finishes_last rfl).mpr ⟨w, rfl, ?_, ?_⟩))⟩
    · simp only [takes_iff, apply_ite UInt8.toNat, UInt8.reduceToNat]
      constructor <;> split_ifs <;> omega
    · simp only [takes_iff, next, UInt8.reduceToNat]
      omega
    · simp only [takes_iff, next, UInt8.reduceToNat]
      omega
    · exact hofNat (by rw [next, next, sum_mk, sum_mk, sum_mk]; omega)

theorem encodeChar_of_ascii (h : firstOctet b = .ascii c) : encodeChar c = [b] := by
  obtain ⟨hb, rfl⟩ := firstOctet_eq_ascii.mp h
  refine List.map_injective_iff.mpr (fun _ _ ↦ UInt8.toNat_inj.mp) ?_
  have hvalue : (Char.ofNat b.toNat).toNat = b.toNat := toNat_ofNat_of_valid (by omega)
  rw [toNat_encodeChar, hvalue, if_pos hb]
  rfl

theorem encodeChar_eq_cons : encodeChar c = b :: tail ↔
    firstOctet b = .ascii c ∧ tail = [] ∨ ∃ p, firstOctet b = .start p ∧ Finishes p tail c := by
  refine ⟨finishes_of_encodeChar, ?_⟩
  rintro (⟨hascii, rfl⟩ | ⟨p, hp, h⟩)
  · exact encodeChar_of_ascii hascii
  · exact encodeChar_of_finishes hp h

theorem encodeChar_ne_nil (c : Char) : encodeChar c ≠ [] := by
  intro h
  have hcodes := toNat_encodeChar c
  rw [h] at hcodes
  split_ifs at hcodes <;> cases hcodes

theorem isOpen_of_start (h : firstOctet b = .start p) : p.Open := by
  obtain ⟨-, -, rfl⟩ | ⟨-, -, rfl⟩ | ⟨-, -, rfl⟩ := firstOctet_eq_start.mp h
  · exact ⟨by simp, by simp⟩
  all_goals
    refine ⟨?_, ?_⟩ <;> rw [UInt8.le_iff_toNat_le] <;> simp only [apply_ite UInt8.toNat, UInt8.reduceToNat] <;> grind

/-- Octets that are not all of a character, nor have more in front of them, begin one where the first does and the
others are taken. -/
theorem begins_cons {more : Octets} : Begins (b :: more) ↔
    (∃ c, encodeChar c = b :: more) ∨ ∃ p q, firstOctet b = .start p ∧ Continues p more q := by
  constructor
  · rintro ⟨c, tail, h⟩
    cases tail with
    | nil => exact .inl ⟨c, by rw [← h, List.append_nil]⟩
    | cons t tail =>
      obtain ⟨-, hnil⟩ | ⟨p, hp, hc⟩ := encodeChar_eq_cons.mp (h.symm.trans (List.cons_append ..))
      · cases List.append_eq_nil_iff.mp hnil |>.2
      · obtain ⟨q, hq⟩ := hc.split (List.cons_ne_nil t tail)
        exact .inr ⟨p, q, hp, hq⟩
  · rintro (⟨c, h⟩ | ⟨p, q, hp, hq⟩)
    · exact ⟨c, by rw [h]⟩
    · obtain ⟨tail, c, hc⟩ := exists_finishes (hq.isOpen (isOpen_of_start hp))
      exact ⟨c, tail, (encodeChar_eq_cons.mpr (.inr ⟨p, hp, hq.finishes hc⟩)).symm⟩

end Written

/-! Reading as a whole. -/

section Reading

variable {b : UInt8} {more part rest bytes : Octets} {out : List Char}

theorem exists_tail {c : Char} (h : encodeChar c <+: b :: bytes) : ∃ tail, encodeChar c = b :: tail ∧ tail <+: bytes :=
  (List.prefix_cons_iff.mp h).resolve_left (encodeChar_ne_nil c)

theorem not_invalid_of_begins (h : Begins (b :: more)) : firstOctet b ≠ .invalid := by
  intro hinvalid
  obtain ⟨c, hc⟩ | ⟨p, -, hp, -⟩ := begins_cons.mp h
  · obtain ⟨hascii, -⟩ | ⟨p, hp, -⟩ := encodeChar_eq_cons.mp hc
    · cases hinvalid.symm.trans hascii
    · cases hinvalid.symm.trans hp
  · cases hinvalid.symm.trans hp

theorem maximalSubpart_invalid (h : firstOctet b = .invalid) (rest : Octets) : MaximalSubpart [b] rest where
  nonempty := List.cons_ne_nil b []
  unfinished c hc := by
    obtain ⟨tail, hwritten, -⟩ := exists_tail hc
    exact not_invalid_of_begins ⟨c, [], by rw [List.append_nil, hwritten]⟩ h
  begun := .inl rfl
  longest longer hlonger hbegins := by
    obtain rfl | ⟨more, rfl, -⟩ := List.prefix_cons_iff.mp hlonger
    · exact Nat.zero_le 1
    · exact absurd h (not_invalid_of_begins hbegins)

theorem maximalSubpart_start {p q : Partial} (hp : firstOctet b = .start p) (hq : Continues p more q)
    (hstop : ∀ t ∈ rest.head?, ¬q.Takes t) : MaximalSubpart (b :: more) rest where
  nonempty := List.cons_ne_nil b more
  unfinished c hc := by
    obtain ⟨tail, hwritten, htail⟩ := exists_tail hc
    obtain ⟨hascii, -⟩ | ⟨p', hp', hfinishes⟩ := encodeChar_eq_cons.mp hwritten
    · cases hp.symm.trans hascii
    · cases hp.symm.trans hp'
      exact (hq.longest hstop htail).1 c hfinishes
  begun := .inr (begins_cons.mpr (.inr ⟨p, q, hp, hq⟩))
  longest longer hlonger hbegins := by
    obtain rfl | ⟨other, rfl, hother⟩ := List.prefix_cons_iff.mp hlonger
    · exact Nat.zero_le _
    · obtain ⟨hfinishes, hcontinues⟩ := hq.longest hstop hother
      obtain ⟨c, hwritten⟩ | ⟨p', r, hp', hr⟩ := begins_cons.mp hbegins
      · obtain ⟨hascii, -⟩ | ⟨p', hp', hc⟩ := encodeChar_eq_cons.mp hwritten
        · cases hp.symm.trans hascii
        · cases hp.symm.trans hp'
          exact absurd hc (hfinishes c)
      · cases hp.symm.trans hp'
        exact Nat.succ_le_succ (hcontinues r hr)

/-- At the front of any octets stands a character or a maximal subpart. -/
theorem character_or_subpart (h : bytes ≠ []) : (∃ c rest, bytes = encodeChar c ++ rest) ∨
    ∃ part rest, bytes = part ++ rest ∧ MaximalSubpart part rest := by
  obtain ⟨b, bytes, rfl⟩ := List.exists_cons_of_ne_nil h
  cases hfirst : firstOctet b with
  | ascii c => exact .inl ⟨c, bytes, by rw [encodeChar_of_ascii hfirst, List.singleton_append]⟩
  | invalid => exact .inr ⟨[b], bytes, rfl, maximalSubpart_invalid hfirst bytes⟩
  | start p =>
    obtain ⟨tail, rest, c, rfl, hc⟩ | ⟨more, rest, q, rfl, hq, hstop⟩ := scan p bytes
    · exact .inl ⟨c, rest, by rw [encodeChar_of_finishes hfirst hc, List.cons_append]⟩
    · exact .inr ⟨b :: more, rest, rfl, maximalSubpart_start hfirst hq hstop⟩

theorem decodeFrom_encodeChar (c : Char) (rest : Octets) :
    decodeFrom none (encodeChar c ++ rest) = c :: decodeFrom none rest := by
  obtain ⟨b, tail, hwritten⟩ := List.exists_cons_of_ne_nil (encodeChar_ne_nil c)
  rw [hwritten, List.cons_append, decodeFrom, decodeStep, decodeFirst]
  obtain ⟨hascii, rfl⟩ | ⟨p, hp, h⟩ := encodeChar_eq_cons.mp hwritten
  · rw [hascii]
    rfl
  · rw [hp]
    exact decodeFrom_finishes h rest

theorem MaximalSubpart.unique {part' rest' : Octets} (h : MaximalSubpart part rest) (h' : MaximalSubpart part' rest')
    (heq : part ++ rest = part' ++ rest') : part = part' ∧ rest = rest' := by
  have hle {part rest part' rest' : Octets} (h : MaximalSubpart part rest) (h' : MaximalSubpart part' rest')
      (heq : part ++ rest = part' ++ rest') : part.length ≤ part'.length := by
    obtain hone | hbegun := h.begun
    · exact hone.trans_le (List.length_pos_iff.mpr h'.nonempty)
    · exact h'.longest part ⟨rest, heq⟩ hbegun
  exact List.append_inj heq (Nat.le_antisymm (hle h h' heq) (hle h' h heq.symm))

theorem decodeFrom_subpart (h : MaximalSubpart part rest) :
    decodeFrom none (part ++ rest) = replacement :: decodeFrom none rest := by
  obtain ⟨b, more, rfl⟩ := List.exists_cons_of_ne_nil h.nonempty
  cases hfirst : firstOctet b with
  | ascii c => 
    refine absurd ?_ (h.unfinished c)
    rw [encodeChar_of_ascii hfirst]
    exact ⟨more ++ rest, rfl⟩
  | invalid =>
    obtain ⟨hpart, hrest⟩ := h.unique (maximalSubpart_invalid hfirst (more ++ rest)) rfl
    rw [hpart, List.singleton_append, decodeFrom, decodeStep, decodeFirst, hfirst]
    rfl
  | start p =>
    have hstep (bytes : Octets) : decodeFrom none (b :: bytes) = decodeFrom (some p) bytes := by
      rw [decodeFrom, decodeStep, decodeFirst, hfirst]
      rfl
    obtain ⟨tail, after, c, heq, hc⟩ | ⟨other, after, q, heq, hq, hstop⟩ := scan p (more ++ rest)
    · refine absurd ?_ (h.unfinished c)
      rw [encodeChar_of_finishes hfirst hc, List.cons_append, heq]
      exact ⟨after, rfl⟩
    · obtain ⟨hpart, rfl⟩ := h.unique (maximalSubpart_start hfirst hq hstop) (congrArg (b :: ·) heq)
      rw [hpart, List.cons_append, hstep, decodeFrom_continues hq, decodeFrom_stop hstop]

/-- There is one way to read some octets. -/
theorem decoding_iff : Decoding bytes out ↔ out = decodeFrom none bytes := by
  constructor
  · intro h
    induction h with
    | nil => rfl
    | character c _ ih => rw [decodeFrom_encodeChar, ih]
    | subpart hpart _ ih => rw [decodeFrom_subpart hpart, ih]
  · rintro rfl
    generalize hn : bytes.length = n
    induction n using Nat.strongRecOn generalizing bytes with
    | ind n ih =>
      by_cases hbytes : bytes = []
      · rw [hbytes]
        exact .nil
      · obtain ⟨c, rest, rfl⟩ | ⟨part, rest, rfl, hpart⟩ := character_or_subpart hbytes
        · have hpos := List.length_pos_iff.mpr (encodeChar_ne_nil c)
          rw [List.length_append] at hn
          rw [decodeFrom_encodeChar]
          exact .character c (ih rest.length (by omega) rfl)
        · have hpos := List.length_pos_iff.mpr hpart.nonempty
          rw [List.length_append] at hn
          rw [decodeFrom_subpart hpart]
          exact .subpart hpart (ih rest.length (by omega) rfl)

end Reading

end SelfHealing.Text
