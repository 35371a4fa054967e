import Mathlib.Data.List.TakeWhile
import SelfHealing.Shell.Evaluation

/-!
Here-documents. Main statements: a document is the lines before its delimiter, whatever they are, and a text that asks
for no expansion is read as it is written.
-/

namespace SelfHealing.Shell

/-! Lines. -/

def unlines (lines : List Chars) : Chars := lines.flatMap (· ++ ['\n'])

@[simp] theorem unlines_nil : unlines [] = [] := rfl

@[simp] theorem unlines_cons (line : Chars) (lines : List Chars) :
    unlines (line :: lines) = line ++ '\n' :: unlines lines := by
  simp [unlines]

theorem length_le_unlines (lines : List Chars) : lines.length ≤ (unlines lines).length := by
  induction lines with
  | nil => exact Nat.le_refl 0
  | cons line rest ih =>
    simp only [unlines_cons, List.length_append, List.length_cons]
    omega

theorem unlines_eq_intercalate {lines : List Chars} (h : lines ≠ []) :
    unlines lines = ['\n'].intercalate lines ++ ['\n'] := by
  induction lines with
  | nil => exact absurd rfl h
  | cons line rest ih =>
    cases rest with
    | nil => simp [List.intercalate]
    | cons next rest => simp [ih (by simp), List.intercalate]

/-- Every text is the text of its lines, but for the last newline. -/
theorem unlines_splitOn (cs : Chars) : unlines (cs.splitOn '\n') = cs ++ ['\n'] := by
  rw [unlines_eq_intercalate (List.splitOn_ne_nil _ _), List.intercalate_splitOn]

theorem newline_not_mem_of_mem_splitOn {cs line : Chars} (h : line ∈ cs.splitOn '\n') : '\n' ∉ line := by
  induction cs generalizing line with
  | nil =>
    obtain rfl : line = [] := by simpa [List.splitOn] using h
    simp
  | cons c rest ih =>
    rw [List.splitOn, List.splitOnP_cons_eq_if_modifyHead] at h
    rw [List.splitOn] at ih
    split at h
    · rcases List.mem_cons.mp h with rfl | h
      · simp
      · exact ih h
    · rename_i hc
      obtain ⟨first, others, hlines⟩ := List.exists_cons_of_ne_nil (List.splitOnP_ne_nil (· == '\n') rest)
      rw [hlines, List.modifyHead_cons] at h
      rcases List.mem_cons.mp h with rfl | h
      · have hfirst : '\n' ∉ first := ih (hlines ▸ List.mem_cons_self)
        simp only [beq_iff_eq] at hc
        simp [hfirst, Ne.symm hc]
      · exact ih (hlines ▸ List.mem_cons_of_mem _ h)

def EndsIn (w : Word) (cs : Chars) : Prop := cs = w ∨ '\n' :: w <:+ cs

section Ends

variable {w : Word} {c : Char} {rest : Chars}

theorem EndsIn.tail (h : EndsIn w (c :: rest)) (hne : c :: rest ≠ w) : EndsIn w rest := by
  rcases h with h | h
  · exact absurd h hne
  · rcases List.suffix_cons_iff.mp h with h | h
    · exact .inl (List.cons.inj h).2.symm
    · exact .inr h

theorem EndsIn.afterComment (h : EndsIn w ('#' :: rest)) (hne : '#' :: rest ≠ w) :
    EndsIn w (rest.dropWhile (· ≠ '\n')) := by
  rcases h with h | h
  · exact absurd h hne
  · obtain ⟨front, rfl⟩ : '\n' :: w <:+ rest := by
      rcases List.suffix_cons_iff.mp h with h | h
      · simp at h
      · exact h
    right
    rw [List.dropWhile_append]
    split
    · simp
    · exact List.suffix_append _ _

theorem endsIn_unlines (w : Word) (lines : List Chars) : EndsIn w (unlines lines ++ w) := by
  induction lines with
  | nil => exact .inl rfl
  | cons line rest ih =>
    right
    rw [unlines_cons, List.append_assoc, List.cons_append]
    rcases ih with h | h
    · rw [h]
      exact List.suffix_append _ _
    · exact h.trans ((List.suffix_cons _ _).trans (List.suffix_append _ _))

end Ends

section Documents

variable {delimiter : Chars}

theorem takeDocument_line (fuel : Nat) (hd : unquote delimiter = delimiter) {line : Chars} (hl : '\n' ∉ line)
    (rest : Chars) :
    takeDocument (fuel + 1) ⟨delimiter, false⟩ (line ++ '\n' :: rest) =
      if line = delimiter then ([], rest)
      else (line ++ '\n' :: (takeDocument fuel ⟨delimiter, false⟩ rest).1,
        (takeDocument fuel ⟨delimiter, false⟩ rest).2) := by
  have hplain : ∀ c ∈ line, decide (c ≠ '\n') = true := by
    intro c hc
    simpa using fun h : c = '\n' ↦ hl (h ▸ hc)
  have hline : (line ++ '\n' :: rest).takeWhile (· ≠ '\n') = line := by
    rw [List.takeWhile_append_of_pos hplain]
    simp
  have hrest : ((line ++ '\n' :: rest).drop line.length).drop 1 = rest := by simp
  have hnonempty : (line ++ '\n' :: rest).isEmpty = false := by simp
  simp only [takeDocument, hline, hrest, hnonempty, hd]
  rfl

theorem takeDocument_nil (fuel : Nat) (a : Awaited) : takeDocument fuel a [] = ([], []) := by
  cases fuel <;> rfl

theorem takeDocument_delimiter (fuel : Nat) (hd : unquote delimiter = delimiter) (hl : '\n' ∉ delimiter) :
    takeDocument (fuel + 1) ⟨delimiter, false⟩ delimiter = ([], []) := by
  have hplain : ∀ c ∈ delimiter, decide (c ≠ '\n') = true := by
    intro c hc
    simpa using fun h : c = '\n' ↦ hl (h ▸ hc)
  have hline : delimiter.takeWhile (· ≠ '\n') = delimiter := List.takeWhile_eq_self_iff.mpr hplain
  by_cases hnil : delimiter = []
  · subst hnil
    exact takeDocument_nil _ _
  · have hnonempty : delimiter.isEmpty = false := by simpa using hnil
    simp only [takeDocument, hline, hnonempty, hd]
    simp

/-- What is left of a text after the first line that is the delimiter, when the delimiter stands at its end too. -/
def leftOver (delimiter : Chars) (lines : List Chars) : Chars :=
  match lines.dropWhile (· ≠ delimiter) with
  | [] => []
  | _ :: rest => unlines rest ++ delimiter

theorem leftOver_cons_self (rest : List Chars) :
    leftOver delimiter (delimiter :: rest) = unlines rest ++ delimiter := by
  simp [leftOver]

theorem leftOver_cons_of_ne {line : Chars} (h : line ≠ delimiter) (rest : List Chars) :
    leftOver delimiter (line :: rest) = leftOver delimiter rest := by
  simp [leftOver, h]

theorem length_leftOver_le (delimiter : Chars) (lines : List Chars) :
    (leftOver delimiter lines).length ≤ (unlines lines).length + delimiter.length := by
  induction lines with
  | nil => simp [leftOver]
  | cons line rest ih =>
    simp only [unlines_cons, List.length_append, List.length_cons]
    by_cases h : line = delimiter
    · rw [h, leftOver_cons_self, List.length_append]
      omega
    · rw [leftOver_cons_of_ne h]
      omega

/-- A document is the lines before its delimiter. -/
theorem takeDocument_unlines (hd : unquote delimiter = delimiter) (hl : '\n' ∉ delimiter) {lines : List Chars}
    (hlines : ∀ line ∈ lines, '\n' ∉ line) {fuel : Nat} (hfuel : lines.length < fuel) :
    takeDocument fuel ⟨delimiter, false⟩ (unlines lines ++ delimiter) =
      (unlines (lines.takeWhile (· ≠ delimiter)), leftOver delimiter lines) := by
  induction lines generalizing fuel with
  | nil =>
    obtain ⟨fuel, rfl⟩ := Nat.exists_eq_add_one_of_ne_zero (Nat.ne_of_gt hfuel)
    exact takeDocument_delimiter fuel hd hl
  | cons line rest ih =>
    obtain ⟨fuel, rfl⟩ := Nat.exists_eq_add_one_of_ne_zero (Nat.ne_of_gt (Nat.zero_lt_of_lt hfuel))
    have hrest := ih (fun l h ↦ hlines l (List.mem_cons_of_mem _ h)) (Nat.lt_of_succ_lt_succ hfuel)
    rw [unlines_cons, List.append_assoc, List.cons_append, takeDocument_line fuel hd (hlines line List.mem_cons_self),
      hrest]
    by_cases h : line = delimiter
    · simp [h, leftOver_cons_self]
    · simp [h, leftOver_cons_of_ne h]

theorem leftOver_eq_nil (hne : delimiter ≠ []) {lines : List Chars} :
    leftOver delimiter lines = [] ↔ delimiter ∉ lines := by
  induction lines with
  | nil => simp [leftOver]
  | cons line rest ih =>
    by_cases h : line = delimiter
    · simp [h, leftOver_cons_self, hne]
    · rw [leftOver_cons_of_ne h, ih]
      simp [Ne.symm h]

theorem endsIn_leftOver {lines : List Chars} (h : delimiter ∈ lines) : EndsIn delimiter (leftOver delimiter lines) := by
  induction lines with
  | nil => simp at h
  | cons line rest ih =>
    by_cases hline : line = delimiter
    · rw [hline, leftOver_cons_self]
      exact endsIn_unlines _ _
    · rw [leftOver_cons_of_ne hline]
      exact ih ((List.mem_cons.mp h).resolve_left (Ne.symm hline))

end Documents

/-! Expansion. -/

def startsNothing (cs : Chars) : Bool :=
  (parameterName cs).isEmpty && !(cs.head? = some '(' || cs.head? = some '\x7b')

/-- Whether a here-document with this text asks for no expansion and holds no escape. -/
def inert : Chars → Bool
  | [] => true
  | '\\' :: c :: rest => !(c ∈ ['$', '`', '\\', '\n']) && inert rest
  | '$' :: rest => startsNothing rest && inert rest
  | '`' :: _ => false
  | _ :: rest => inert rest

theorem startsNothing_iff {cs : Chars} :
    startsNothing cs = true ↔ parameterName cs = [] ∧ cs.head? ≠ some '(' ∧ cs.head? ≠ some '\x7b' := by
  simp [startsNothing]

theorem takeDollar_alone {rest : Chars} (h : startsNothing rest = true) (fuel : Nat) :
    takeDollar (fuel + 1) ('$' :: rest) = .ok (['$'], rest) := by
  obtain ⟨-, hparen, hbrace⟩ := startsNothing_iff.mp h
  rcases rest with _ | ⟨c, rest⟩
  · rfl
  · have hc : c ≠ '(' ∧ c ≠ '\x7b' := by simpa using And.intro hparen hbrace
    rw [takeDollar]
    · rfl
    all_goals simp [hc]

theorem expandDollar_alone (run : Substitution) {rest : Chars} (h : startsNothing rest = true) (fuel : Nat) :
    expandDollar run (fuel + 1) .document ('$' :: rest) = pure ([.fixed ⟨'$', true⟩], rest) := by
  have hname : parameterName rest = [] := (startsNothing_iff.mp h).1
  have htake : takeDollar (textFuel ('$' :: rest)) ('$' :: rest) = .ok (['$'], rest) := takeDollar_alone h _
  simp [expandDollar, htake, split, hname]

theorem expand_inert (run : Substitution) {cs : Chars} (h : inert cs = true) {fuel : Nat}
    (hfuel : cs.length + 1 < fuel) : expand run fuel .document cs = pure (quotedPieces cs) := by
  induction cs using inert.induct generalizing fuel with
  | case1 =>
    obtain ⟨fuel, rfl⟩ := Nat.exists_eq_add_one_of_ne_zero (Nat.ne_of_gt (Nat.zero_lt_of_lt hfuel))
    simp [expand, quotedPieces]
  | case2 c rest ih =>
    -- The backslash stays, and what follows it is not looked at again.
    obtain ⟨fuel, rfl⟩ := Nat.exists_eq_add_one_of_ne_zero (Nat.ne_of_gt (Nat.zero_lt_of_lt hfuel))
    simp only [List.length_cons] at hfuel
    simp only [inert, Bool.and_eq_true] at h
    have hmore : rest.length + 1 < fuel := by omega
    have hrest := ih h.2 hmore
    have hc : c ≠ '$' ∧ c ≠ '`' ∧ c ≠ '\\' ∧ c ≠ '\n' := by simpa using h.1
    rw [expand]
    · simp [hrest, hc, quotedPieces]
    · simp [hc]
  | case3 rest ih =>
    obtain ⟨fuel, rfl⟩ := Nat.exists_eq_add_one_of_ne_zero (Nat.ne_of_gt (Nat.zero_lt_of_lt hfuel))
    simp only [List.length_cons] at hfuel
    simp only [inert, Bool.and_eq_true] at h
    have hmore : rest.length + 1 < fuel := by omega
    have hrest := ih h.2 hmore
    -- The dollar sign itself takes fuel too, from what is left for the rest.
    obtain ⟨fuel, rfl⟩ := Nat.exists_eq_add_one_of_ne_zero (n := fuel) (by omega)
    rw [expand]
    · simp [expandDollar_alone run h.1, hrest, quotedPieces]
    all_goals simp
  | case4 rest => simp [inert] at h
  | case5 c rest h1 h2 h3 ih =>
    obtain ⟨fuel, rfl⟩ := Nat.exists_eq_add_one_of_ne_zero (Nat.ne_of_gt (Nat.zero_lt_of_lt hfuel))
    simp only [List.length_cons] at hfuel
    have hinert : inert rest = true := by
      rwa [inert] at h
      all_goals assumption
    have hmore : rest.length + 1 < fuel := by omega
    have hrest := ih hinert hmore
    rw [expand]
    · simp [hrest, quotedPieces, show c ≠ '$' from h2, show c ≠ '`' from h3]
    · exact fun more hc hr ↦ h1 _ more hc hr
    · exact h1

theorem pieceChars_quotedPieces (cs : Chars) : pieceChars (quotedPieces cs) = cs := by
  induction cs with
  | nil => rfl
  | cons c rest ih =>
    have hrest : pieceChars (quotedPieces (c :: rest)) = c :: pieceChars (quotedPieces rest) := rfl
    rw [hrest, ih]

theorem expandText_inert (run : Substitution) {cs : Chars} (h : inert cs = true) :
    expandText run .document cs = pure cs := by
  have hfuel : cs.length + 1 < textFuel cs := by
    unfold textFuel
    omega
  simp [expandText, expand_inert run h hfuel, pieceChars_quotedPieces]

def State.receiving (s : State) (text : Chars) : State := { s with world := { s.world with input := text } }

/-- A document that asks for no expansion is what the command receives. -/
theorem redirect_inert (run : Substitution) {cs : Chars} (h : inert cs = true) (s : State) :
    (redirect run ⟨0, .document true, cs⟩).run.run s = (.ok true, s.receiving cs) := by
  simp [redirect, expandText_inert run h]
  rfl

end SelfHealing.Shell
