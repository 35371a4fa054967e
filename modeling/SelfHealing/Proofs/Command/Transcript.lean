import SelfHealing.Command.Output

/-!
Output by lines. Main statement: a line may be taken as soon as it is complete, and the lines of what comes later are
those of the rest; so whatever pieces some output comes in, the same lines are shown.
-/

namespace SelfHealing

namespace Text

variable {front back : Octets}

theorem takeLine_nil : takeLine [] = ([], []) := rfl

theorem takeLine_newline (rest : Octets) : takeLine (newline :: rest) = ([newline], rest) := by
  simp [takeLine]

theorem takeLine_cons {b : UInt8} (h : b ≠ newline) (rest : Octets) :
    takeLine (b :: rest) = (b :: (takeLine rest).1, (takeLine rest).2) := by
  simp [takeLine, h]

theorem takeLine_append_of_not_mem (h : newline ∉ front) (back : Octets) :
    takeLine (front ++ back) = (front ++ (takeLine back).1, (takeLine back).2) := by
  induction front with
  | nil => rfl
  | cons b rest ih =>
    obtain ⟨hb, hrest⟩ := not_or.mp (mt List.mem_cons.mpr h)
    rw [List.cons_append, takeLine_cons (Ne.symm hb), ih hrest]
    rfl

theorem takeLine_append_of_mem (h : newline ∈ front) (back : Octets) :
    takeLine (front ++ back) = ((takeLine front).1, (takeLine front).2 ++ back) := by
  induction front with
  | nil => cases h
  | cons b rest ih =>
    by_cases hb : b = newline
    · rw [hb, List.cons_append, takeLine_newline, takeLine_newline]
    · have hrest : newline ∈ rest := (List.mem_cons.mp h).resolve_left (Ne.symm hb)
      rw [List.cons_append, takeLine_cons hb, takeLine_cons hb, ih hrest]

theorem takeLine_of_not_mem (h : newline ∉ front) : takeLine front = (front, []) := by
  have hwhole := takeLine_append_of_not_mem h []
  rwa [takeLine_nil, List.append_nil] at hwhole

theorem newline_mem_takeLine (h : newline ∈ front) : newline ∈ (takeLine front).1 := by
  induction front with
  | nil => cases h
  | cons b rest ih =>
    by_cases hb : b = newline
    · rw [hb, takeLine_newline]
      exact List.mem_singleton_self _
    · rw [takeLine_cons hb]
      exact List.mem_cons_of_mem _ (ih ((List.mem_cons.mp h).resolve_left (Ne.symm hb)))

theorem splitLines_nil : splitLines [] = [] := by
  rw [splitLines]

theorem splitLines_of_ne_nil (h : front ≠ []) : splitLines front = (takeLine front).1 :: splitLines (takeLine front).2 := by
  cases front with
  | nil => exact absurd rfl h
  | cons b rest => rw [splitLines]

theorem splitLines_of_not_mem (h : newline ∉ front) (hne : front ≠ []) : splitLines front = [front] := by
  rw [splitLines_of_ne_nil hne, takeLine_of_not_mem h, splitLines_nil]

/-- A complete line may be taken before the rest has come. -/
theorem splitLines_line {held ready : Octets} (hheld : newline ∉ held) (hready : newline ∈ ready) (more : Octets) :
    splitLines (held ++ (ready ++ more)) = (held ++ (takeLine ready).1) :: splitLines ((takeLine ready).2 ++ more) := by
  have hne : held ++ (ready ++ more) ≠ [] := by
    have hmem : newline ∈ held ++ (ready ++ more) := by simp [hready]
    exact List.ne_nil_of_mem hmem
  rw [splitLines_of_ne_nil hne, takeLine_append_of_not_mem hheld, takeLine_append_of_mem hready]

theorem decodeStep_silent {state : Option Partial} {b : UInt8} (h : (decodeStep state b).1 = []) :
    (decodeStep state b).2.isSome := by
  have hfirst (hb : (decodeFirst b).1 = []) : (decodeFirst b).2.isSome := by
    unfold decodeFirst at hb ⊢
    cases hf : firstOctet b with
    | ascii c => simp [hf] at hb
    | start p => rfl
    | invalid => simp [hf] at hb
  cases state with
  | none => exact hfirst h
  | some p =>
    by_cases hrange : p.low ≤ b ∧ b ≤ p.high
    · by_cases hneeded : p.needed ≤ 1
      · simp [decodeStep, hrange, hneeded] at h
      · simp [decodeStep, hrange, hneeded]
    · simp [decodeStep, hrange] at h

/-- Every octet shows, at the latest when there are no more. -/
theorem decodeFrom_ne_nil {state : Option Partial} {bytes : Octets} (h : state.isSome ∨ bytes ≠ []) :
    decodeFrom state bytes ≠ [] := by
  induction bytes generalizing state with
  | nil => simp_all [decodeFrom]
  | cons b rest ih =>
    rw [decodeFrom]
    by_cases hout : (decodeStep state b).1 = []
    · exact List.append_ne_nil_of_right_ne_nil _ (ih (.inl (decodeStep_silent hout)))
    · exact List.append_ne_nil_of_left_ne_nil hout _

theorem decodeLossy_ne_empty {bytes : Octets} (h : bytes ≠ []) : decodeLossy bytes ≠ "" := by
  intro hempty
  have hchars := congrArg String.toList hempty
  rw [decodeLossy, String.toList_ofList] at hchars
  exact decodeFrom_ne_nil (.inr h) hchars

end Text

namespace Command.Transcript

open Text

theorem push_nil (t : Transcript) : t.push [] = t := rfl

theorem pushAll_cons (t : Transcript) (line : Octets) (rest : List Octets) :
    t.pushAll (line :: rest) = (t.push line).pushAll rest := rfl

theorem pushAll_nil (t : Transcript) : t.pushAll [] = t := rfl

def ofOctets (bytes : Octets) : Transcript := empty.pushAll (splitLines bytes)

theorem pushAll_line {held ready : Octets} (hheld : newline ∉ held) (hready : newline ∈ ready) (t : Transcript)
    (more : Octets) :
    t.pushAll (splitLines (held ++ (ready ++ more))) =
      (t.push (held ++ (takeLine ready).1)).pushAll (splitLines ((takeLine ready).2 ++ more)) := by
  rw [splitLines_line hheld hready, pushAll_cons]

theorem pushAll_tail {tail : Octets} (h : newline ∉ tail) (t : Transcript) :
    t.pushAll (splitLines tail) = t.push tail := by
  by_cases hne : tail = []
  · rw [hne, splitLines_nil, push_nil, pushAll_nil]
  · rw [splitLines_of_not_mem h hne, pushAll_cons, pushAll_nil]

theorem push_text_ne_empty {t : Transcript} {line : Octets} (h : t.text ≠ "" ∨ line ≠ []) : (t.push line).text ≠ "" := by
  unfold push
  by_cases hline : line = []
  · simpa [hline] using h
  · have hshown := decodeLossy_ne_empty hline
    simp [hline, hshown]

theorem pushAll_text_ne_empty {t : Transcript} (h : t.text ≠ "") (lines : List Octets) : (t.pushAll lines).text ≠ "" := by
  induction lines generalizing t with
  | nil => exact h
  | cons line rest ih => exact ih (push_text_ne_empty (.inl h))

theorem ofOctets_text_eq_empty {bytes : Octets} : (ofOctets bytes).text = "" ↔ bytes = [] := by
  cases bytes with
  | nil => exact iff_of_true (by rw [ofOctets, splitLines_nil]; rfl) rfl
  | cons b rest =>
    have hne : b :: rest ≠ [] := List.cons_ne_nil b rest
    have hline : (takeLine (b :: rest)).1 ≠ [] := by
      by_cases hb : b = newline
      · simp [hb, takeLine_newline]
      · simp [takeLine_cons hb]
    refine iff_of_false ?_ hne
    rw [ofOctets, splitLines_of_ne_nil hne, pushAll_cons]
    exact pushAll_text_ne_empty (push_text_ne_empty (.inr hline)) _

end Command.Transcript

end SelfHealing
