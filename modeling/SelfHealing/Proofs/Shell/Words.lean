import SelfHealing.Proofs.Shell.Document

/-!
The tokens of plain text. Main statements: a word of ordinary characters is one token, a here-document takes its text
from behind the line that asks for it, and a text whose last line is such a word has a token or cannot be read.
-/

namespace SelfHealing.Shell

/-! Texts as octets. -/

theorem ofString_append (a b : String) : ofString (a ++ b) = ofString a ++ ofString b := by
  simp [ofString, ofOctets, Text.encode]

theorem ok_bind {ε α β : Type} (a : α) (f : α → Except ε β) : Except.ok a >>= f = f a := rfl

/-! Words. -/

def isPlain (c : Char) : Bool := !endsWord c && c ∉ ['\\', '\'', '"', '$', '`']

def isPlainWord (w : Word) : Bool :=
  w.all isPlain && (w.head?.any fun c ↦ c ≠ '#' && !c.isDigit)

structure Bare (w : Word) : Prop where
  nonempty : w ≠ []
  plain : w.all isPlain = true
  uncommented : w.head? ≠ some '#'

theorem bare_of_isPlainWord {w : Word} (h : isPlainWord w = true) : Bare w := by
  rcases w with _ | ⟨c, w⟩
  · simp [isPlainWord] at h
  · obtain ⟨hplain, hsharp, -⟩ : (c :: w).all isPlain = true ∧ c ≠ '#' ∧ c.isDigit = false := by
      simpa [isPlainWord] using h
    exact ⟨List.cons_ne_nil c w, hplain, by simpa using hsharp⟩

def endsHere : Chars → Bool
  | [] => true
  | c :: _ => endsWord c

theorem isPlain_ne {c : Char} (h : isPlain c = true) :
    endsWord c = false ∧ c ≠ '\\' ∧ c ≠ '\'' ∧ c ≠ '"' ∧ c ≠ '$' ∧ c ≠ '`' := by
  simpa [isPlain] using h

theorem takePiece_plain {c : Char} (h : isPlain c = true) (rest : Chars) (fuel : Nat) :
    takePiece (fuel + 1) (c :: rest) = .ok ([c], rest) := by
  have hc := isPlain_ne h
  have hparen : c ≠ '(' := by
    rintro rfl
    exact absurd hc.1 (by decide)
  rw [takePiece]
  · simp [hc]
    rfl
  all_goals simp [hc, hparen]

theorem takeWord_plain {w : Word} (h : w.all isPlain = true) {rest : Chars} (hrest : endsHere rest = true) {fuel : Nat}
    (hfuel : w.length + 1 < fuel) : takeWord fuel (w ++ rest) = .ok (w, rest) := by
  induction w generalizing fuel with
  | nil =>
    obtain ⟨fuel, rfl⟩ := Nat.exists_eq_add_one_of_ne_zero (Nat.ne_of_gt (Nat.zero_lt_of_lt hfuel))
    rcases rest with _ | ⟨e, more⟩
    · rfl
    · have he : endsWord e = true := hrest
      have hback : e ≠ '\\' := by
        rintro rfl
        exact absurd he (by decide)
      rw [List.nil_append, takeWord]
      · simp [he]
        rfl
      · simp [hback]
  | cons c w ih =>
    obtain ⟨fuel, rfl⟩ := Nat.exists_eq_add_one_of_ne_zero (Nat.ne_of_gt (Nat.zero_lt_of_lt hfuel))
    rw [List.length_cons] at hfuel
    rw [List.all_cons, Bool.and_eq_true] at h
    have hmore : w.length + 1 < fuel := by omega
    have hword := ih h.2 hmore
    obtain ⟨fuel, rfl⟩ := Nat.exists_eq_add_one_of_ne_zero (n := fuel) (by omega)
    have hc := isPlain_ne h.1
    rw [List.cons_append, takeWord]
    · simp only [hc.1, takePiece_plain h.1, ok_bind, hword, Bool.false_eq_true, if_false]
      rfl
    · simp [hc]

/-! Tokens. -/

theorem lex_nil (fuel line : Nat) : lex (fuel + 1) line [] [] = ⟨[], [], none⟩ := rfl

theorem lex_space {c : Char} (h : isSpace c = true) (fuel line : Nat) (awaited : List Awaited) (rest : Chars) :
    lex (fuel + 1) line awaited (c :: rest) = lex fuel line awaited rest := by
  have hc : c ≠ '\n' ∧ c ≠ '\\' := by
    constructor
    all_goals
      rintro rfl
      exact absurd h (by decide)
  rw [lex]
  · simp [h]
  all_goals simp [hc]

theorem lex_comment (fuel line : Nat) (awaited : List Awaited) (rest : Chars) :
    lex (fuel + 1) line awaited ('#' :: rest) = lex fuel line awaited (rest.dropWhile (· ≠ '\n')) := by
  rw [lex]
  · simp [isSpace]
  all_goals simp

theorem lex_continued (fuel line : Nat) (awaited : List Awaited) (rest : Chars) :
    lex (fuel + 1) line awaited ('\\' :: '\n' :: rest) = lex fuel (line + 1) awaited rest := by
  rw [lex]

theorem descriptorAt?_of_not_digit {c : Char} (h : c.isDigit = false) (rest : Chars) :
    descriptorAt? (c :: rest) = none := by
  simp [descriptorAt?, h]

theorem directionAt?_of_not_operator {c : Char} (h : isOperatorChar c = false) (rest : Chars) :
    directionAt? (c :: rest) = none := by
  have hc : c ≠ '<' ∧ c ≠ '>' := by
    constructor
    all_goals
      rintro rfl
      exact absurd h (by decide)
  rw [directionAt?]
  all_goals simp [hc]

theorem operatorAt?_of_not_operator {c : Char} (h : isOperatorChar c = false) (rest : Chars) :
    operatorAt? (c :: rest) = none := by
  have hc : c ∉ [';', '&', '|', '<', '>', '(', ')'] := by simpa [isOperatorChar] using h
  simp only [List.mem_cons, List.not_mem_nil, or_false, not_or] at hc
  obtain ⟨hsemicolon, hand, hbar, -, -, hopen, hclose⟩ := hc
  simp [operatorAt?, operators, List.isPrefixOf, Ne.symm hsemicolon, Ne.symm hand, Ne.symm hbar, Ne.symm hopen,
    Ne.symm hclose]

theorem countLines_plain {w : Word} (h : w.all isPlain = true) : countLines w = 0 := by
  refine List.count_eq_zero.mpr fun hn ↦ ?_
  have hplain := List.all_eq_true.mp h '\n' hn
  exact absurd hplain (by decide)

/-- A bare word that is not taken for the descriptor of a redirection is one token. -/
theorem lex_bare {w : Word} (h : Bare w) {rest : Chars} (hrest : endsHere rest = true)
    (hdescriptor : descriptorAt? (w ++ rest) = none) (fuel line : Nat) (awaited : List Awaited) :
    lex (fuel + 1) line awaited (w ++ rest) = (lex fuel line awaited rest).cons line (.word w) := by
  rcases w with _ | ⟨c, w⟩
  · exact absurd rfl h.nonempty
  · have hplain := h.plain
    have hsharp : c ≠ '#' := by simpa using h.uncommented
    have hc := isPlain_ne (List.all_eq_true.mp hplain c List.mem_cons_self)
    obtain ⟨hspace, hline, hoperator⟩ : isSpace c = false ∧ c ≠ '\n' ∧ isOperatorChar c = false := by
      simpa [endsWord, and_assoc] using hc.1
    have hangle : c ≠ '<' := by
      rintro rfl
      exact absurd hoperator (by decide)
    have hprefix : "<<".toList.isPrefixOf (c :: (w ++ rest)) = false := by
      simp [List.isPrefixOf, Ne.symm hangle]
    have htake : takeWord (textFuel (c :: (w ++ rest))) (c :: (w ++ rest)) = .ok (c :: w, rest) := by
      refine takeWord_plain hplain hrest ?_
      simp only [textFuel, List.length_cons, List.length_append]
      omega
    have hcount : countLines ((c :: (w ++ rest)).take ((c :: (w ++ rest)).length - rest.length)) = 0 := by
      have hlength : (c :: (w ++ rest)).length - rest.length = (c :: w).length := by
        simp only [List.length_cons, List.length_append]
        omega
      have htaken : (c :: (w ++ rest)).take (c :: w).length = c :: w := List.take_left' rfl
      rw [hlength, htaken, countLines_plain hplain]
    rw [List.cons_append] at hdescriptor
    rw [List.cons_append, lex]
    · simp only [hspace, hsharp, hdescriptor, hprefix, directionAt?_of_not_operator hoperator,
        operatorAt?_of_not_operator hoperator, htake, hcount, Bool.false_eq_true, if_false, Nat.add_zero]
    · simp [hc]
    · simp [hline]

theorem lex_word {w : Word} (h : isPlainWord w = true) {rest : Chars} (hrest : endsHere rest = true) (fuel line : Nat)
    (awaited : List Awaited) :
    lex (fuel + 1) line awaited (w ++ rest) = (lex fuel line awaited rest).cons line (.word w) := by
  have hdigit : descriptorAt? (w ++ rest) = none := by
    rcases w with _ | ⟨c, w⟩
    · simp [isPlainWord] at h
    · obtain ⟨-, -, hdigit⟩ : (c :: w).all isPlain = true ∧ c ≠ '#' ∧ c.isDigit = false := by
        simpa [isPlainWord] using h
      exact descriptorAt?_of_not_digit hdigit _
  exact lex_bare (bare_of_isPlainWord h) hrest hdigit fuel line awaited

theorem isQuotedWord_plain {w : Word} (h : w.all isPlain = true) : isQuotedWord w = false := by
  rw [isQuotedWord, List.any_eq_false]
  intro c hc
  have hplain := isPlain_ne (List.all_eq_true.mp h c hc)
  simp [hplain]

theorem lex_document {w : Word} (h : isPlainWord w = true) (hdash : w.head? ≠ some '-') {rest : Chars}
    (hrest : endsHere rest = true) (fuel line : Nat) (awaited : List Awaited) :
    lex (fuel + 1) line awaited ('<' :: '<' :: (w ++ rest)) =
      (lex fuel line (awaited ++ [⟨w, false⟩]) rest).cons line (.document none true []) := by
  rcases w with _ | ⟨c, w⟩
  · simp [isPlainWord] at h
  · obtain ⟨hplain, -, -⟩ : (c :: w).all isPlain = true ∧ c ≠ '#' ∧ c.isDigit = false := by
      simpa [isPlainWord] using h
    have hc := isPlain_ne (List.all_eq_true.mp hplain c List.mem_cons_self)
    have hspace : isSpace c = false := by
      have hends := hc.1
      simp only [endsWord, Bool.or_eq_false_iff] at hends
      exact hends.1.1
    have hdash : c ≠ '-' := by simpa using hdash
    have htake : takeWord (textFuel (c :: (w ++ rest))) (c :: (w ++ rest)) = .ok (c :: w, rest) := by
      refine takeWord_plain hplain hrest ?_
      simp only [textFuel, List.length_cons, List.length_append]
      omega
    have hquoted : isQuotedWord (c :: w) = false := isQuotedWord_plain hplain
    rw [List.cons_append, lex]
    · have hdescriptor := descriptorAt?_of_not_digit (show Char.isDigit '<' = false by decide) ('<' :: c :: (w ++ rest))
      have hangle : isSpace '<' = false := by decide
      have hdrop : (c :: (w ++ rest)).dropWhile isSpace = c :: (w ++ rest) := by simp [hspace]
      simp [hdescriptor, hangle, hdash, hdrop, htake, hquoted]
    all_goals simp

/-- What follows the documents that a line has asked for. -/
def lexAfter (fuel line : Nat) (awaited : List Awaited) (rest : Chars) : Lexed :=
  lex fuel (line + 1 + countLines (rest.take (rest.length - (takeDocuments rest awaited).2.length))) []
    (takeDocuments rest awaited).2

theorem lex_newline (fuel line : Nat) (awaited : List Awaited) (rest : Chars) :
    lex (fuel + 1) line awaited ('\n' :: rest) = Lexed.cons line .newline { lexAfter fuel line awaited rest with
      bodies := (takeDocuments rest awaited).1 ++ (lexAfter fuel line awaited rest).bodies } := by
  rw [lex]
  rfl

/-! Texts that end in a word. -/

section Ends

variable {w : Word} {c : Char} {rest : Chars}

def Lexed.Speaks (l : Lexed) : Prop := (∃ t ∈ l.tokens, t.token ≠ .newline) ∨ l.error? ≠ none

theorem Lexed.Speaks.cons {l : Lexed} (h : l.Speaks) (line : Nat) (t : Token) : (l.cons line t).Speaks := by
  obtain ⟨u, hu, hne⟩ | h := h
  · exact .inl ⟨u, List.mem_cons_of_mem _ hu, hne⟩
  · exact .inr h

theorem Lexed.speaks_cons (l : Lexed) (line : Nat) {t : Token} (h : t ≠ .newline) : (l.cons line t).Speaks :=
  .inl ⟨⟨line, t⟩, List.mem_cons_self, h⟩

/-- What is neither skipped nor the end of a line begins a token, or cannot be read. -/
theorem lex_first (hspace : isSpace c = false) (hline : c ≠ '\n') (hcomment : c ≠ '#')
    (hcontinued : ∀ after, c = '\\' → rest = '\n' :: after → False) (fuel line : Nat) (awaited : List Awaited) :
    (lex (fuel + 1) line awaited (c :: rest)).Speaks := by
  rw [lex]
  · simp only [hspace, hcomment, if_false, Bool.false_eq_true]
    -- Whether or not a descriptor comes first.
    split
    all_goals
      split
      · split
        · exact Lexed.speaks_cons _ _ (by simp)
        · exact .inr (by simp)
      · split
        · exact Lexed.speaks_cons _ _ (by simp)
        · exact Lexed.speaks_cons _ _ (by simp)
        · split
          · exact Lexed.speaks_cons _ _ (by simp)
          · exact .inr (by simp)
  · exact hcontinued
  · exact hline

theorem lex_speaks (hw : isPlainWord w = true) {fuel : Nat} {cs : Chars} (h : EndsIn w cs) (hfuel : cs.length < fuel)
    (line : Nat) : (lex fuel line [] cs).Speaks := by
  -- What is skipped never reaches into the last line, so the text that is left ends in it still.
  induction fuel generalizing line cs with
  | zero => simp at hfuel
  | succ fuel ih =>
    have hskip {c : Char} {after : Chars} (hc : isPlain c = false ∨ c = '#') : c :: after ≠ w := by
      rintro rfl
      rcases hc with hc | rfl
      · simp [isPlainWord, hc] at hw
      · simp [isPlainWord] at hw
    rcases cs with _ | ⟨c, rest⟩
    · rcases h with rfl | h
      · simp [isPlainWord] at hw
      · simp at h
    rw [List.length_cons] at hfuel
    by_cases hline : c = '\n'
    · subst hline
      rw [lex_newline]
      exact Lexed.Speaks.cons (ih (h.tail (hskip (.inl (by decide)))) (by omega) _) _ _
    by_cases hspace : isSpace c = true
    · have hplain : isPlain c = false := by simp [isPlain, endsWord, hspace]
      rw [lex_space hspace]
      exact ih (h.tail (hskip (.inl hplain))) (by omega) _
    by_cases hcomment : c = '#'
    · subst hcomment
      rw [lex_comment]
      have hle := (List.dropWhile_suffix (· ≠ '\n') (l := rest)).length_le
      exact ih (h.afterComment (hskip (.inr rfl))) (by omega) _
    by_cases hcontinued : ∃ after, c = '\\' ∧ rest = '\n' :: after
    · obtain ⟨after, rfl, rfl⟩ := hcontinued
      rw [lex_continued]
      rw [List.length_cons] at hfuel
      have hafter := (h.tail (hskip (.inl (by decide)))).tail (hskip (.inl (by decide)))
      exact ih hafter (by omega) _
    · exact lex_first (by simpa using hspace) hline hcomment (fun after hc hrest ↦ hcontinued ⟨after, hc, hrest⟩)
        fuel line []

end Ends

theorem exists_mem_fill {tokens : List Located} (bodies : List Chars) (h : ∃ t ∈ tokens, t.token ≠ .newline) :
    ∃ t ∈ fill tokens bodies, t.token ≠ .newline := by
  induction tokens, bodies using fill.induct with
  | case1 line fd expanded old rest body bodies =>
    rw [fill]
    exact ⟨_, List.mem_cons_self, by simp⟩
  | case2 bodies t rest hdocument ih =>
    rw [fill]
    · obtain ⟨u, hu, hne⟩ := h
      rcases List.mem_cons.mp hu with rfl | hu
      · exact ⟨u, List.mem_cons_self, hne⟩
      · obtain ⟨v, hv, hne⟩ := ih ⟨u, hu, hne⟩
        exact ⟨v, List.mem_cons_of_mem _ hv, hne⟩
    · exact hdocument
  | case3 => simp at h

end SelfHealing.Shell
