import Mathlib.Data.List.Forall2
import SelfHealing.Proofs.Command.Interleaving
import SelfHealing.Proofs.Text.Blank
import SelfHealing.Proofs.Text.Utf8

/-!
Output read line by line. Main statement: whatever the octets are, the text of their lines is the text of the whole, for
a newline is a newline whatever was begun before it; and one line is shown for each that was written, with no newline
in it.
-/

namespace SelfHealing

namespace Text

variable {state : Option Partial} {p : Partial} {b : UInt8} {front back bytes : Octets}

inductive Lines : Octets → List Octets → Prop
  | nil : Lines [] []
  | tail {front : Octets} : newline ∉ front → front ≠ [] → Lines front [front]
  | line {front rest : Octets} {pieces : List Octets} :
      newline ∉ front → Lines rest pieces → Lines (front ++ newline :: rest) ((front ++ [newline]) :: pieces)

theorem splitLines_newline (h : newline ∉ front) (rest : Octets) :
    splitLines (front ++ newline :: rest) = (front ++ [newline]) :: splitLines rest := by
  have hline := splitLines_line h (List.mem_singleton_self newline) rest
  rwa [takeLine_newline, List.singleton_append, List.nil_append] at hline

/-- There is one way to cut. -/
theorem lines_iff {pieces : List Octets} : Lines bytes pieces ↔ pieces = splitLines bytes := by
  constructor
  · intro h
    induction h with
    | nil => rw [splitLines_nil]
    | tail hfront hne => rw [splitLines_of_not_mem hfront hne]
    | line hfront _ ih => rw [splitLines_newline hfront, ih]
  · rintro rfl
    generalize hn : bytes.length = n
    induction n using Nat.strongRecOn generalizing bytes with
    | ind n ih =>
      by_cases hmem : newline ∈ bytes
      · obtain ⟨front, rest, rfl, hfront⟩ := List.eq_append_cons_of_mem hmem
        rw [List.length_append, List.length_cons] at hn
        rw [splitLines_newline hfront]
        exact .line hfront (ih rest.length (by omega) rfl)
      · by_cases hbytes : bytes = []
        · rw [hbytes, splitLines_nil]
          exact .nil
        · rw [splitLines_of_not_mem hmem hbytes]
          exact .tail hmem hbytes

theorem isOpen_decodeFirst (h : (decodeFirst b).2 = some p) : p.Open := by
  rw [decodeFirst] at h
  cases hfirst : firstOctet b with
  | ascii c => simp [hfirst] at h
  | invalid => simp [hfirst] at h
  | start q =>
    rw [hfirst] at h
    obtain rfl : q = p := Option.some.inj h
    exact isOpen_of_start hfirst

theorem isOpen_decodeStep (h : (decodeStep state b).2 = some p) : p.Open := by
  cases state with
  | none => exact isOpen_decodeFirst h
  | some q =>
    by_cases htakes : q.Takes b
    · by_cases hneeded : q.needed ≤ 1
      · rw [decodeStep_last htakes hneeded] at h
        cases h
      · rw [decodeStep_more htakes (by omega)] at h
        obtain rfl := Option.some.inj h
        exact Partial.open_next q b
    · have hrefused : ¬(q.low ≤ b ∧ b ≤ q.high) := htakes
      rw [decodeStep, if_neg hrefused] at h
      exact isOpen_decodeFirst h

theorem decodeFrom_newline_cons (hstate : ∀ p ∈ state, p.Open) (rest : Octets) :
    decodeFrom state (newline :: rest) = decodeFrom state [] ++ '\n' :: decodeFrom none rest := by
  cases state with
  | none => rfl
  | some p =>
    have hrefused : ¬p.Takes newline := fun htakes ↦
      absurd (UInt8.le_trans (hstate p rfl).low htakes.1) (by decide)
    rw [decodeFrom_stop (by simpa using hrefused)]
    rfl

theorem decodeFrom_newline (hstate : ∀ p ∈ state, p.Open) (front back : Octets) :
    decodeFrom state (front ++ newline :: back) = decodeFrom state front ++ '\n' :: decodeFrom none back := by
  induction front generalizing state with
  | nil => exact decodeFrom_newline_cons hstate back
  | cons b front ih =>
    have hcons (bytes : Octets) :
        decodeFrom state (b :: bytes) = (decodeStep state b).1 ++ decodeFrom (decodeStep state b).2 bytes := rfl
    rw [List.cons_append, hcons, hcons, ih fun p ↦ isOpen_decodeStep, List.append_assoc]

theorem newline_mem_of_decoding {out : List Char} (h : Decoding bytes out) (hout : '\n' ∈ out) : newline ∈ bytes := by
  induction h with
  | nil => cases hout
  | character c _ ih =>
    obtain rfl | hout := List.mem_cons.mp hout
    · exact List.mem_append_left _ (by decide)
    · exact List.mem_append_right _ (ih hout)
  | subpart _ _ ih =>
    obtain hreplaced | hout := List.mem_cons.mp hout
    · exact absurd hreplaced (by decide)
    · exact List.mem_append_right _ (ih hout)

theorem decodeLossy_newline (front back : Octets) :
    decodeLossy (front ++ newline :: back) = decodeLossy (front ++ [newline]) ++ decodeLossy back := by
  have hnone (p : Partial) (hp : p ∈ none) : p.Open := absurd hp (Option.not_mem_none p)
  rw [decodeLossy, decodeLossy, decodeLossy, ← String.ofList_append, decodeFrom_newline hnone, decodeFrom_newline hnone]
  simp [decodeFrom]

theorem join_decodeLossy {pieces : List Octets} (h : Lines bytes pieces) :
    String.join (pieces.map decodeLossy) = decodeLossy bytes := by
  induction h with
  | nil => rfl
  | tail => simp
  | line _ _ ih => rw [decodeLossy_newline, ← ih, List.map_cons, String.join_cons]

def isEnding (c : Char) : Bool := c = '\n' || c = '\r'

theorem stripped_chomp (bytes : Octets) :
    Stripped isEnding (decodeFrom none bytes) (chomp (decodeLossy bytes)).toList := by
  rw [chomp, decodeLossy, String.toList_ofList, String.toList_ofList]
  exact stripped_dropTrailing isEnding _

theorem newline_not_mem_decodeFrom (h : newline ∉ front) : '\n' ∉ decodeFrom none front :=
  fun hout ↦ h (newline_mem_of_decoding (decoding_iff.mpr rfl) hout)

/-- Within a line nothing is read as a newline, and the one at its end is not shown. -/
theorem newline_not_mem_chomp {pieces : List Octets} (h : Lines bytes pieces) :
    ∀ piece ∈ pieces, '\n' ∉ (chomp (decodeLossy piece)).toList := by
  induction h with
  | nil => exact List.forall_mem_nil _
  | @tail front hfront _ =>
    refine List.forall_mem_singleton.mpr ((stripped_chomp front).not_mem rfl fun hmem ↦ ?_)
    exact newline_not_mem_decodeFrom hfront (List.mem_of_mem_dropLast hmem)
  | @line front _ _ hfront _ ih =>
    refine List.forall_mem_cons.mpr ⟨(stripped_chomp _).not_mem rfl ?_, ih⟩
    have hline : decodeFrom none (front ++ [newline]) = decodeFrom none front ++ ['\n'] :=
      decodeFrom_newline (fun p hp ↦ absurd hp (Option.not_mem_none p)) front []
    rw [hline, List.dropLast_concat]
    exact newline_not_mem_decodeFrom hfront

theorem ne_nil_of_lines {pieces : List Octets} (h : Lines bytes pieces) : ∀ piece ∈ pieces, piece ≠ [] := by
  induction h with
  | nil => exact List.forall_mem_nil _
  | tail _ hne => exact List.forall_mem_singleton.mpr hne
  | line _ _ ih => exact List.forall_mem_cons.mpr ⟨List.append_ne_nil_of_right_ne_nil _ (List.cons_ne_nil _ _), ih⟩

end Text

namespace Command.Transcript

open Text

theorem pushAll_filter (t : Transcript) (pieces : List Octets) : t.pushAll pieces = t.pushAll (pieces.filter (· ≠ [])) := by
  induction pieces generalizing t with
  | nil => rfl
  | cons piece pieces ih =>
    by_cases hpiece : piece = []
    · rw [hpiece, pushAll_cons, push_nil, ih, List.filter_cons_of_neg (by simp)]
    · rw [List.filter_cons_of_pos (by simpa using hpiece), pushAll_cons, pushAll_cons, ih]

/-- Octets read line by line are read as they are read at once. -/
theorem pushAll_splitLines (bytes : Octets) (t : Transcript) :
    (∀ pieces, Lines bytes pieces ↔ pieces = splitLines bytes) ∧
      (∀ out, Decoding bytes out ↔ (t.pushAll (splitLines bytes)).text = t.text ++ String.ofList out) ∧
      (∃ shown, (t.pushAll (splitLines bytes)).lines = t.lines ++ shown ∧
        List.Forall₂ (fun piece line ↦ '\n' ∉ line.toList ∧ ∃ out, Decoding piece out ∧
          Stripped isEnding out line.toList) (splitLines bytes) shown) ∧
      ∀ pieces, t.pushAll pieces = t.pushAll (pieces.filter (· ≠ [])) := by
  have hcut : Lines bytes (splitLines bytes) := lines_iff.mpr rfl
  have hpush := pushAll_ofLines (ne_nil_of_lines hcut) t
  refine ⟨fun pieces ↦ lines_iff, fun out ↦ ?_, ⟨(ofLines (splitLines bytes)).lines, ?_, ?_⟩, pushAll_filter t⟩
  · have htext : (ofLines (splitLines bytes)).text = decodeLossy bytes := join_decodeLossy hcut
    rw [hpush, htext, decoding_iff, decodeLossy, String.append_right_inj, String.ofList_inj, eq_comm]
  · rw [hpush]
  · refine List.forall₂_map_right_iff.mpr (List.forall₂_same.mpr fun piece hpiece ↦ ?_)
    exact ⟨newline_not_mem_chomp hcut piece hpiece, _, decoding_iff.mpr rfl, stripped_chomp piece⟩

end Command.Transcript

end SelfHealing
