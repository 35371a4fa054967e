import Mathlib.Data.List.TakeDrop
import SelfHealing.Net.Address.Reader
import SelfHealing.Net.Address.Writer
import SelfHealing.Proofs.Text.Numeral

/-!
Addresses written and read again. Main statement: the text of an address is read as that address.
-/

namespace SelfHealing.Net

open Text

section Digits

variable {radix : Nat}

def Stops (radix : Nat) (cs : List Char) : Prop := ∀ c ∈ cs.head?, digitValue? radix c = none

theorem spanDigits_append {ds rest : List Char} (hds : ∀ c ∈ ds, (digitValue? radix c).isSome)
    (hrest : Stops radix rest) : spanDigits radix (ds ++ rest) = (ds, rest) := by
  have hstop : rest.takeWhile (fun c ↦ (digitValue? radix c).isSome) = [] ∧
      rest.dropWhile (fun c ↦ (digitValue? radix c).isSome) = rest := by
    cases rest with
    | nil => exact ⟨rfl, rfl⟩
    | cons c rest =>
      have hc : digitValue? radix c = none := hrest c rfl
      simp [hc]
  rw [spanDigits, List.span_eq_takeWhile_dropWhile, List.takeWhile_append_of_pos hds, List.dropWhile_append_of_pos hds,
    hstop.1, hstop.2, List.append_nil]

theorem spanDigits_digits (hlow : 2 ≤ radix) (hradix : radix ≤ 36) (n : Nat) {rest : List Char}
    (hrest : Stops radix rest) : spanDigits radix (digits radix n ++ rest) = (digits radix n, rest) :=
  spanDigits_append (fun _ ↦ isSome_digitValue?_of_mem_digits hlow hradix) hrest

theorem readOctet?_digits (n : UInt8) {rest : List Char} (hrest : Stops 10 rest) :
    readOctet? (digits 10 n.toNat ++ rest) = some (n, rest) := by
  have hn : n.toNat < 256 := n.toNat_lt
  have hlength : (digits 10 n.toNat).length ≤ 3 := length_digits_le (by omega) (by omega)
  have hhead : ¬((digits 10 n.toNat).head? = some '0' ∧ 1 < (digits 10 n.toNat).length) := by
    rintro ⟨hzero, hlong⟩
    rcases Nat.eq_zero_or_pos n.toNat with h | h
    · rw [h] at hlong
      exact absurd hlong (by simp [digits])
    · exact head?_digits_ne (by omega) (by omega) h hzero
  simp only [readOctet?, spanDigits_digits (by omega) (by omega) _ hrest]
  rw [if_neg (not_or.mpr ⟨by omega, hhead⟩), natural?_digits (by omega) (by omega)]
  simp [hn]

theorem readGroup?_digits (g : UInt16) {rest : List Char} (hrest : Stops 16 rest) :
    readGroup? (digits 16 g.toNat ++ rest) = some (g, rest) := by
  have hg : g.toNat < 65536 := g.toNat_lt
  have hlength : (digits 16 g.toNat).length ≤ 4 := length_digits_le (by omega) (by omega)
  simp only [readGroup?, spanDigits_digits (by omega) (by omega) _ hrest]
  rw [if_neg (by omega), natural?_digits (by omega) (by omega)]
  simp

end Digits

section Dotted

theorem stops_dot (rest : List Char) : Stops 10 ('.' :: rest) := by
  intro c hc
  obtain rfl := Option.some.inj hc
  decide

theorem readAddress4?_chars (a : Address4) {rest : List Char} (hrest : Stops 10 rest) :
    readAddress4? (a.chars ++ rest) = some (a, rest) := by
  simp [Address4.chars, readAddress4?, readOctet?_digits, readChar?, stops_dot, hrest]

theorem readAddress4?_whole (a : Address4) : readAddress4? a.chars = some (a, []) := by
  have hstops : Stops 10 [] := by simp [Stops]
  have hread := readAddress4?_chars a hstops
  rwa [List.append_nil] at hread

theorem readOctet?_rest {cs rest : List Char} {n : UInt8} (h : readOctet? cs = some (n, rest)) :
    rest = (spanDigits 10 cs).2 := by
  simp only [readOctet?] at h
  split at h
  · cases h
  · obtain ⟨m, -, h⟩ := Option.bind_eq_some_iff.mp h
    split at h
    · exact (congrArg Prod.snd (Option.some.inj h)).symm
    · cases h

/-- There is no address in dotted form where the digits at the front are not followed by a dot. -/
theorem readAddress4?_eq_none {cs : List Char} (h : (spanDigits 10 cs).2.head? ≠ some '.') :
    readAddress4? cs = none := by
  cases hoctet : readOctet? cs with
  | none => simp [readAddress4?, hoctet]
  | some taken =>
    obtain ⟨n, rest⟩ := taken
    have hdot : readChar? '.' rest = none := by
      rw [← readOctet?_rest hoctet] at h
      cases rest with
      | nil => rfl
      | cons c rest => simpa [readChar?, eq_comm] using h
    simp [readAddress4?, hoctet, hdot]

end Dotted

section Groups

def EndsGroup (cs : List Char) : Prop := ∀ c ∈ cs.head?, c = ':'

def EndsGroups (cs : List Char) : Prop := cs = [] ∨ ∃ rest, cs = ':' :: ':' :: rest

theorem EndsGroup.stops {cs : List Char} (h : EndsGroup cs) : Stops 16 cs := by
  intro c hc
  rw [h c hc]
  decide

theorem EndsGroups.endsGroup {cs : List Char} (h : EndsGroups cs) : EndsGroup cs := by
  obtain rfl | ⟨rest, rfl⟩ := h
  · simp [EndsGroup]
  · simp [EndsGroup]

theorem dot_not_mem_digits (n : Nat) : '.' ∉ digits 16 n := fun h ↦
  absurd (isSome_digitValue?_of_mem_digits (by omega) (by omega) h) (by decide)

theorem readAddress4?_group {ds rest : List Char} (hds : '.' ∉ ds) (hrest : EndsGroup rest) :
    readAddress4? (ds ++ rest) = none := by
  apply readAddress4?_eq_none
  rw [spanDigits, List.span_eq_takeWhile_dropWhile]
  induction ds with
  | nil =>
    cases rest with
    | nil => simp
    | cons c rest =>
      obtain rfl : c = ':' := hrest c rfl
      simp [show digitValue? 10 ':' = none by decide]
  | cons c ds ih =>
    obtain ⟨hc, hds⟩ := not_or.mp (mt List.mem_cons.mpr hds)
    rw [List.cons_append, List.dropWhile_cons]
    split
    · exact ih hds
    · exact fun h ↦ hc (Option.some.inj h).symm

def laterGroups (groups : List UInt16) : List Char := groups.flatMap fun g ↦ ':' :: digits 16 g.toNat

theorem groupsChars_cons (g : UInt16) (groups : List UInt16) :
    groupsChars (g :: groups) = digits 16 g.toNat ++ laterGroups groups := by
  induction groups generalizing g with
  | nil => simp [groupsChars, laterGroups]
  | cons next groups ih =>
    have h := ih next
    simp only [groupsChars, List.map_cons] at h ⊢
    rw [List.intersperse_cons_cons, List.flatten_cons, List.flatten_cons, h]
    simp [laterGroups]

theorem endsGroup_later (groups : List UInt16) {rest : List Char} (h : EndsGroups rest) :
    EndsGroup (laterGroups groups ++ rest) := by
  cases groups with
  | nil => exact h.endsGroup
  | cons g groups => simp [EndsGroup, laterGroups]

theorem readGroups_group {limit : Nat} {first : Bool} {cs after : List Char} (g : UInt16)
    (hbody : (if first then some cs else readChar? ':' cs) = some (digits 16 g.toNat ++ after))
    (hafter : EndsGroup after) :
    readGroups (limit + 1) first cs =
      ⟨g :: (readGroups limit false after).groups, (readGroups limit false after).dotted,
        (readGroups limit false after).rest⟩ := by
  have hdotted : (if 0 < limit then readAddress4? (digits 16 g.toNat ++ after) else none) = none := by
    rw [readAddress4?_group (dot_not_mem_digits _) hafter, ite_self]
  rw [readGroups]
  simp only [hbody, hdotted, readGroup?_digits g hafter.stops]

theorem readGroups_end {limit : Nat} {first : Bool} {cs : List Char} (h : EndsGroups cs) :
    readGroups limit first cs = ⟨[], false, cs⟩ := by
  cases limit with
  | zero => rw [readGroups]
  | succ limit =>
    cases hbody : if first then some cs else readChar? ':' cs with
    | none => simp only [readGroups, hbody]
    | some body =>
      -- What would be read is the text itself, or what follows its first colon: no digit stands in front of it.
      have hend : EndsGroup body := by
        cases first with
        | true => exact Option.some.inj hbody ▸ h.endsGroup
        | false =>
          obtain rfl | ⟨rest, rfl⟩ := h
          · cases hbody
          · obtain rfl : ':' :: rest = body := Option.some.inj hbody
            simp [EndsGroup]
      have hdotted : (if 0 < limit then readAddress4? body else none) = none := by
        have hnone : readAddress4? body = none := readAddress4?_group List.not_mem_nil hend
        rw [hnone, ite_self]
      have hspan : spanDigits 16 ([] ++ body) = ([], body) := spanDigits_append (by simp) hend.stops
      rw [List.nil_append] at hspan
      have hgroup : readGroup? body = none := by simp [readGroup?, hspan, natural?]
      simp only [readGroups, hbody, hdotted, hgroup]

theorem readGroups_later (groups : List UInt16) {limit : Nat} (hlimit : groups.length ≤ limit) {rest : List Char}
    (hrest : EndsGroups rest) : readGroups limit false (laterGroups groups ++ rest) = ⟨groups, false, rest⟩ := by
  induction groups generalizing limit with
  | nil => exact readGroups_end hrest
  | cons g groups ih =>
    obtain ⟨limit, rfl⟩ : ∃ n, limit = n + 1 := ⟨limit - 1, by simp at hlimit; omega⟩
    have htext : laterGroups (g :: groups) ++ rest = ':' :: (digits 16 g.toNat ++ (laterGroups groups ++ rest)) := by
      simp [laterGroups]
    rw [htext, readGroups_group g rfl (endsGroup_later groups hrest), ih (by simpa using hlimit)]

theorem readGroups_groupsChars (groups : List UInt16) {limit : Nat} (hlimit : groups.length ≤ limit) {rest : List Char}
    (hrest : EndsGroups rest) : readGroups limit true (groupsChars groups ++ rest) = ⟨groups, false, rest⟩ := by
  cases groups with
  | nil => exact readGroups_end hrest
  | cons g groups =>
    obtain ⟨limit, rfl⟩ : ∃ n, limit = n + 1 := ⟨limit - 1, by simp at hlimit; omega⟩
    rw [groupsChars_cons, List.append_assoc, readGroups_group g rfl (endsGroup_later groups hrest),
      readGroups_later groups (by simpa using hlimit) hrest]

end Groups

section ZeroRuns

variable {groups : List UInt16} {run : ZeroRun}

def ZeroRun.In (run : ZeroRun) (groups : List UInt16) : Prop :=
  ∃ front back, groups = front ++ List.replicate run.length 0 ++ back ∧ front.length = run.start

theorem zeroRunAt_in {start : Nat} (h : start ≤ groups.length) : (zeroRunAt groups start).In groups := by
  refine ⟨groups.take start, (groups.drop start).dropWhile (· = 0), ?_, by simp [zeroRunAt, h]⟩
  have hzeros : (groups.drop start).takeWhile (· = 0) = List.replicate (zeroRunAt groups start).length 0 :=
    List.eq_replicate_iff.mpr ⟨rfl, fun g hg ↦ of_decide_eq_true (List.all_eq_true.mp List.all_takeWhile g hg)⟩
  rw [← hzeros, List.append_assoc, List.takeWhile_append_dropWhile, List.take_append_drop]

theorem longestZeroRun_in (groups : List UInt16) : (longestZeroRun groups).In groups := by
  unfold longestZeroRun
  have hall : ∀ start ∈ List.range groups.length, start ≤ groups.length := fun start h ↦
    Nat.le_of_lt (List.mem_range.mp h)
  have hfirst : ZeroRun.In ⟨0, 0⟩ groups := ⟨[], groups, rfl, rfl⟩
  generalize List.range groups.length = starts at hall
  generalize (⟨0, 0⟩ : ZeroRun) = best at hfirst
  induction starts generalizing best with
  | nil => exact hfirst
  | cons start starts ih =>
    refine ih (fun s hs ↦ hall s (.tail _ hs)) _ ?_
    dsimp only
    split
    · exact zeroRunAt_in (hall start (.head _))
    · exact hfirst

end ZeroRuns

section Addresses

theorem ofGroups?_groups (a : Address6) : ofGroups? a.groups = some a := by
  rw [ofGroups?, dif_pos a.size]

theorem readAddress6?_plain (a : Address6) : readAddress6? (groupsChars a.groups) = some (a, []) := by
  have hread := readGroups_groupsChars a.groups (Nat.le_of_eq a.size) (.inl rfl)
  rw [List.append_nil] at hread
  simp [readAddress6?, hread, a.size, ofGroups?_groups]

theorem readAddress6?_compressed (a : Address6) {front back : List UInt16} {count : Nat} (hcount : 1 < count)
    (h : a.groups = front ++ List.replicate count 0 ++ back) :
    readAddress6? (groupsChars front ++ ':' :: ':' :: groupsChars back) = some (a, []) := by
  have hsize : front.length + count + back.length = 8 := by
    have hlength := a.size
    rw [h] at hlength
    simpa [Nat.add_assoc] using hlength
  have hhead : readGroups 8 true (groupsChars front ++ ':' :: ':' :: groupsChars back) =
      ⟨front, false, ':' :: ':' :: groupsChars back⟩ := readGroups_groupsChars front (by omega) (.inr ⟨_, rfl⟩)
  have htail : readGroups (7 - front.length) true (groupsChars back ++ []) = ⟨back, false, []⟩ :=
    readGroups_groupsChars back (by omega) (.inl rfl)
  rw [List.append_nil] at htail
  have hzeros : 8 - front.length - back.length = count := by omega
  have hnot : front.length ≠ 8 := by omega
  have hgroups : front ++ (List.replicate count 0 ++ back) = a.groups := by rw [h, List.append_assoc]
  simp [readAddress6?, hhead, hnot, readChar?, htail, hzeros, hgroups, ofGroups?_groups]

theorem toUInt16_bytes (g : UInt16) : (g / 256).toUInt8.toUInt16 * 256 + (g % 256).toUInt8.toUInt16 = g := by
  have hg : g.toNat < 65536 := g.toNat_lt
  apply UInt16.toNat_inj.mp
  simp only [UInt16.toNat_add, UInt16.toNat_mul, UInt8.toNat_toUInt16, UInt16.toNat_toUInt8, UInt16.toNat_div,
    UInt16.toNat_mod, show (256 : UInt16).toNat = 256 from rfl]
  omega

theorem readAddress6?_mapped {a : Address6} {inner : Address4} (h : a.mapped? = some inner) :
    readAddress6? ("::ffff:".toList ++ inner.chars) = some (a, []) := by
  obtain ⟨hi, lo, hgroups, hinner⟩ : ∃ hi lo, a.groups = [0, 0, 0, 0, 0, 0xffff, hi, lo] ∧ inner.groups = [hi, lo] := by
    unfold Address6.mapped? at h
    split at h
    · obtain rfl := Option.some.inj h
      exact ⟨_, _, ‹_›, by simp only [Address4.groups, toUInt16_bytes]⟩
    · cases h
  have hlast : readGroups 6 false (':' :: inner.chars) = ⟨inner.groups, true, []⟩ := by
    simp [readGroups, readChar?, readAddress4?_whole]
  have hdigits : digits 16 (0xffff : UInt16).toNat = ['f', 'f', 'f', 'f'] := by decide +kernel
  have htail : readGroups 7 true ('f' :: 'f' :: 'f' :: 'f' :: ':' :: inner.chars) =
      ⟨0xffff :: inner.groups, true, []⟩ := by
    have hbody : 'f' :: 'f' :: 'f' :: 'f' :: ':' :: inner.chars =
        digits 16 (0xffff : UInt16).toNat ++ ':' :: inner.chars := by rw [hdigits]; rfl
    rw [hbody, readGroups_group 0xffff rfl (by simp [EndsGroup]), hlast]
  have htext : "::ffff:".toList ++ inner.chars = ':' :: ':' :: 'f' :: 'f' :: 'f' :: 'f' :: ':' :: inner.chars := rfl
  have hhead : readGroups 8 true (':' :: ':' :: 'f' :: 'f' :: 'f' :: 'f' :: ':' :: inner.chars) =
      ⟨[], false, ':' :: ':' :: 'f' :: 'f' :: 'f' :: 'f' :: ':' :: inner.chars⟩ := readGroups_end (.inr ⟨_, rfl⟩)
  rw [htext]
  simp [readAddress6?, hhead, readChar?, htail, hinner, ← hgroups, ofGroups?_groups]

theorem readAddress6?_chars (a : Address6) : readAddress6? a.chars = some (a, []) := by
  unfold Address6.chars
  cases hmapped : a.mapped? with
  | some inner => exact readAddress6?_mapped hmapped
  | none =>
    dsimp only
    have hrun := longestZeroRun_in a.groups
    generalize longestZeroRun a.groups = run at hrun ⊢
    split
    · rename_i hlong
      obtain ⟨front, back, hgroups, hstart⟩ := hrun
      have hfront : a.groups.take run.start = front := by
        rw [hgroups, List.append_assoc, ← hstart, List.take_left]
      have hback : a.groups.drop (run.start + run.length) = back := by
        rw [hgroups]
        exact List.drop_left' (by simp [hstart])
      rw [hfront, hback, List.append_assoc]
      exact readAddress6?_compressed a hlong hgroups
    · exact readAddress6?_plain a

theorem readAddress4?_groups (groups : List UInt16) {rest : List Char} (h : EndsGroups rest) :
    readAddress4? (groupsChars groups ++ rest) = none := by
  cases groups with
  | nil => exact readAddress4?_group List.not_mem_nil h.endsGroup
  | cons g groups =>
    rw [groupsChars_cons, List.append_assoc]
    exact readAddress4?_group (dot_not_mem_digits _) (endsGroup_later groups h)

theorem readAddress4?_chars6 (a : Address6) : readAddress4? a.chars = none := by
  unfold Address6.chars
  split
  · rename_i inner hmapped
    have htext : "::ffff:".toList ++ inner.chars =
        groupsChars [] ++ ':' :: ':' :: ("ffff:".toList ++ inner.chars) := rfl
    rw [htext]
    exact readAddress4?_groups [] (.inr ⟨_, rfl⟩)
  · dsimp only
    split
    · rw [List.append_assoc]
      exact readAddress4?_groups _ (.inr ⟨_, rfl⟩)
    · rw [← List.append_nil (groupsChars _)]
      exact readAddress4?_groups _ (.inl rfl)

theorem Address.parse?_text (a : Address) : Address.parse? a.text = some a := by
  have hread : readAddress? a.chars = some (a, []) := by
    unfold readAddress?
    cases a with
    | v4 a => simp only [Address.chars, readAddress4?_whole]
    | v6 a => simp only [Address.chars, readAddress4?_chars6, readAddress6?_chars, Option.map_some]
  simp only [Address.parse?, Address.text, String.toList_ofList, hread]

end Addresses

end SelfHealing.Net
