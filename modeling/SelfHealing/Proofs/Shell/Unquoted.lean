import SelfHealing.Proofs.Shell.Words

/-!
Texts without quotes. Main statement: where nothing is quoted or expanded, a word is what stands between the characters
that end words, it does not begin like a comment, and it stands for itself.
-/

namespace SelfHealing.Shell

def Unquoted (cs : Chars) : Prop := ∀ c ∈ cs, c ∉ ['\\', '\'', '"', '$', '`']

section Reading

variable {c : Char} {cs rest raw : Chars} {fuel : Nat}

theorem Unquoted.mono (h : Unquoted cs) (hrest : rest ⊆ cs) : Unquoted rest := fun c hc ↦ h c (hrest hc)

theorem Unquoted.ne_backslash (h : Unquoted (c :: cs)) : c ≠ '\\' := by
  rintro rfl
  exact h '\\' List.mem_cons_self (by decide)

theorem Unquoted.isPlain (h : Unquoted cs) (hc : c ∈ cs) (hend : endsWord c = false) : isPlain c = true := by
  have hquoting := h c hc
  simp only [Shell.isPlain, hend, hquoting]
  decide

theorem takeWord_cons (hplain : isPlain c = true) (hword : takeWord (fuel + 2) (c :: cs) = .ok (raw, rest)) :
    ∃ taken, raw = c :: taken ∧ takeWord (fuel + 1) cs = .ok (taken, rest) := by
  have hc := isPlain_ne hplain
  rw [takeWord, if_neg (by simp [hc.1]), takePiece_plain hplain, ok_bind] at hword
  · dsimp only at hword
    cases hmore : takeWord (fuel + 1) cs with
    | error e =>
      rw [hmore] at hword
      cases hword
    | ok parts =>
      rw [hmore] at hword
      obtain ⟨rfl, rfl⟩ := Prod.mk.inj (Except.ok.inj hword)
      exact ⟨parts.1, rfl, rfl⟩
  · simp [hc.2.1]

theorem takeWord_unquoted (h : Unquoted cs) (hword : takeWord fuel cs = .ok (raw, rest)) :
    raw.all isPlain = true ∧ cs = raw ++ rest := by
  induction fuel generalizing cs raw rest with
  | zero =>
    obtain ⟨rfl, rfl⟩ := Prod.mk.inj (Except.ok.inj hword)
    exact ⟨rfl, rfl⟩
  | succ fuel ih =>
    rcases cs with _ | ⟨c, cs⟩
    · obtain ⟨rfl, rfl⟩ := Prod.mk.inj (Except.ok.inj hword)
      exact ⟨rfl, rfl⟩
    have hback : c ≠ '\\' := h.ne_backslash
    by_cases hend : endsWord c = true
    · rw [takeWord, if_pos hend] at hword
      · obtain ⟨rfl, rfl⟩ := Prod.mk.inj (Except.ok.inj hword)
        exact ⟨rfl, rfl⟩
      · simp [hback]
    · have hplain := h.isPlain List.mem_cons_self (by simpa using hend)
      cases fuel with
      | zero =>
        rw [takeWord, if_neg hend] at hword
        · cases hword
        · simp [hback]
      | succ fuel =>
        obtain ⟨taken, rfl, hmore⟩ := takeWord_cons hplain hword
        obtain ⟨hall, rfl⟩ := ih (h.mono (List.subset_cons_self c cs)) hmore
        exact ⟨by simp [hplain, hall], rfl⟩

theorem bare_of_takeWord (h : Unquoted (c :: cs)) (hend : endsWord c = false) (hcomment : c ≠ '#')
    (hword : takeWord (fuel + 2) (c :: cs) = .ok (raw, rest)) : Bare raw := by
  obtain ⟨taken, rfl, -⟩ := takeWord_cons (h.isPlain List.mem_cons_self hend) hword
  exact ⟨List.cons_ne_nil c taken, (takeWord_unquoted h hword).1, by simpa using hcomment⟩

theorem Unquoted.after (h : Unquoted cs) (hword : takeWord fuel cs = .ok (raw, rest)) : Unquoted rest := by
  rw [(takeWord_unquoted h hword).2] at h
  exact h.mono (List.subset_append_right raw rest)

theorem takeDocument_subset (fuel : Nat) (a : Awaited) (cs : Chars) : (takeDocument fuel a cs).2 ⊆ cs := by
  induction fuel generalizing cs with
  | zero => exact List.Subset.refl cs
  | succ fuel ih =>
    have hrest (n : Nat) : (cs.drop n).drop 1 ⊆ cs := List.Subset.trans (List.drop_subset _ _) (List.drop_subset _ _)
    simp only [takeDocument]
    generalize (if a.indented = true then _ else _ : Chars) = line
    split
    · exact List.nil_subset cs
    · split
      · exact hrest _
      · exact List.Subset.trans (ih _) (hrest _)

theorem takeDocuments_subset (awaited : List Awaited) (cs : Chars) : (takeDocuments cs awaited).2 ⊆ cs := by
  induction awaited generalizing cs with
  | nil => exact List.Subset.refl cs
  | cons a more ih =>
    have hafter : (takeDocuments cs (a :: more)).2 = (takeDocuments (takeDocument (cs.length + 1) a cs).2 more).2 := rfl
    rw [hafter]
    exact List.Subset.trans (ih _) (takeDocument_subset _ a cs)

theorem directionAt?_subset {d : Direction} (h : directionAt? cs = some (d, rest)) : rest ⊆ cs := by
  unfold directionAt? at h
  split at h <;> cases h
  all_goals
    intro c hc
    simp [hc]

theorem descriptorAt?_subset {n : Nat} (h : descriptorAt? cs = some (n, rest)) : rest ⊆ cs := by
  unfold descriptorAt? at h
  dsimp only at h
  split at h
  · cases h
  · obtain ⟨-, rfl⟩ := Prod.mk.inj (Option.some.inj h)
    exact List.drop_subset _ _

theorem directionAt?_of_descriptorAt? {n : Nat} (h : descriptorAt? cs = some (n, rest)) : directionAt? rest ≠ none := by
  unfold descriptorAt? at h
  dsimp only at h
  split at h
  · cases h
  · rename_i hnot
    obtain ⟨-, rfl⟩ := Prod.mk.inj (Option.some.inj h)
    generalize cs.drop (cs.takeWhile Char.isDigit).length = body at hnot
    rcases body with _ | ⟨c, body⟩
    · simp at hnot
    · obtain rfl | rfl : c = '<' ∨ c = '>' := by
        by_contra hc
        simp_all
      · unfold directionAt?
        split <;> simp_all
      · unfold directionAt?
        split <;> simp_all

theorem not_operator (hdirection : directionAt? (c :: rest) = none) (hoperator : operatorAt? (c :: rest) = none) :
    isOperatorChar c = false := by
  have hnone {op : String} (hop : op ∈ operators) : ¬op.toList <+: c :: rest := by
    simpa using List.find?_eq_none.mp hoperator op hop
  have halone (op : String) (hop : op ∈ operators) (htext : op.toList = [c]) : False :=
    hnone hop (by rw [htext]; exact ⟨rest, rfl⟩)
  refine Bool.eq_false_iff.mpr fun hc ↦ ?_
  simp only [isOperatorChar, decide_eq_true_iff, List.mem_cons, List.not_mem_nil, or_false] at hc
  rcases hc with rfl | rfl | rfl | rfl | rfl | rfl | rfl
  · exact halone ";" (by decide) rfl
  · exact halone "&" (by decide) rfl
  · exact halone "|" (by decide) rfl
  · unfold directionAt? at hdirection
    split at hdirection <;> simp_all
  · unfold directionAt? at hdirection
    split at hdirection <;> simp_all
  · exact halone "(" (by decide) rfl
  · exact halone ")" (by decide) rfl

def Lexed.Plain (l : Lexed) : Prop := ∀ t ∈ l.tokens, ∀ raw, t.token = .word raw → Bare raw

theorem Lexed.Plain.nil (bodies : List Chars) (error? : Option LexError) : (⟨[], bodies, error?⟩ : Lexed).Plain :=
  fun _ ht ↦ absurd ht List.not_mem_nil

theorem Lexed.Plain.cons {l : Lexed} (h : l.Plain) (line : Nat) {t : Token} (ht : ∀ raw, t = .word raw → Bare raw) :
    (l.cons line t).Plain := by
  intro u hu raw hraw
  obtain rfl | hu := List.mem_cons.mp hu
  · exact ht raw hraw
  · exact h u hu raw hraw

theorem lex_unquoted (h : Unquoted cs) (fuel line : Nat) (awaited : List Awaited) :
    (lex fuel line awaited cs).Plain := by
  induction fuel generalizing cs line awaited with
  | zero => exact .nil [] none
  | succ fuel ih =>
    rcases cs with _ | ⟨c, rest⟩
    · exact .nil _ none
    have hrest : Unquoted rest := h.mono (List.subset_cons_self c rest)
    by_cases hline : c = '\n'
    · subst hline
      rw [lex_newline]
      exact Lexed.Plain.cons (ih (hrest.mono (takeDocuments_subset awaited rest)) _ _) _ (by simp)
    by_cases hspace : isSpace c = true
    · rw [lex_space hspace]
      exact ih hrest _ _
    by_cases hcomment : c = '#'
    · subst hcomment
      rw [lex_comment]
      exact ih (hrest.mono (List.dropWhile_suffix _).subset) _ _
    have hback : c ≠ '\\' := h.ne_backslash
    have hdocument {body : Chars} (hbody : body ⊆ c :: rest) (n : Nat) :
        Unquoted (((body.drop 2).drop n).dropWhile isSpace) :=
      h.mono (List.Subset.trans (List.Subset.trans (List.dropWhile_suffix _).subset (List.drop_subset _ _))
        (List.Subset.trans (List.drop_subset _ _) hbody))
    have hend (hdirection : directionAt? (c :: rest) = none) (hoperator : operatorAt? (c :: rest) = none) :
        endsWord c = false := by
      simp [endsWord, hspace, hline, not_operator hdirection hoperator]
    rw [lex]
    · simp only [hspace, hcomment, if_false, Bool.false_eq_true]
      rcases hdescriptor : descriptorAt? (c :: rest) with _ | ⟨n, body⟩
      · dsimp only
        split
        · split
          · rename_i hword
            exact (ih ((hdocument (List.Subset.refl _) _).after hword) _ _).cons _ (by simp)
          · exact .nil [] _
        · split
          · rename_i hdirection
            exact (ih (h.mono (directionAt?_subset hdirection)) _ _).cons _ (by simp)
          · exact (ih (h.mono (List.drop_subset _ _)) _ _).cons _ (by simp)
          · rename_i hdirection hoperator
            split
            · rename_i hword
              refine (ih (h.after hword) _ _).cons _ fun raw hraw ↦ ?_
              obtain rfl := Token.word.inj hraw
              exact bare_of_takeWord h (hend hdirection hoperator) hcomment hword
            · exact .nil [] _
      · have hbody := descriptorAt?_subset hdescriptor
        dsimp only
        split
        · split
          · rename_i hword
            exact (ih ((hdocument hbody _).after hword) _ _).cons _ (by simp)
          · exact .nil [] _
        · split
          · rename_i hdirection
            exact (ih (h.mono (List.Subset.trans (directionAt?_subset hdirection) hbody)) _ _).cons _ (by simp)
          all_goals
            rename_i hdirection _
            exact absurd hdirection (directionAt?_of_descriptorAt? hdescriptor)
    · simp [hback]
    · exact hline

theorem mem_word_of_fill {tokens : List Located} {bodies : List Chars} {t : Located} {raw : Word}
    (h : t ∈ fill tokens bodies) (ht : t.token = .word raw) : t ∈ tokens := by
  induction tokens, bodies using fill.induct with
  | case1 line fd expanded old rest body bodies ih =>
    rw [fill] at h
    obtain rfl | h := List.mem_cons.mp h
    · cases ht
    · exact List.mem_cons_of_mem _ (ih h)
  | case2 bodies first rest hdocument ih =>
    rw [fill] at h
    · obtain rfl | h := List.mem_cons.mp h
      · exact List.mem_cons_self
      · exact List.mem_cons_of_mem _ (ih h)
    · exact hdocument
  | case3 => exact absurd h (by simp [fill])

/-- What the shell takes for a word of the text is a bare one. -/
theorem bare_of_tokenize (h : Unquoted cs) {t : Located} (ht : t ∈ (tokenize cs).1) (hword : t.token = .word raw) :
    Bare raw :=
  lex_unquoted h _ _ _ t (mem_word_of_fill ht hword) raw hword

theorem descriptorAt?_eq_none (hinput : '<' ∉ cs) (houtput : '>' ∉ cs) : descriptorAt? cs = none := by
  have hnone (n : Nat) : cs[n]? ≠ some '<' ∧ cs[n]? ≠ some '>' :=
    ⟨fun h ↦ hinput (List.mem_of_getElem? h), fun h ↦ houtput (List.mem_of_getElem? h)⟩
  simp [descriptorAt?, hnone]

end Reading

theorem inert_of_unquoted {cs : Chars} (h : Unquoted cs) : inert cs = true := by
  induction cs using inert.induct with
  | case1 => rfl
  | case2 => exact absurd rfl h.ne_backslash
  | case3 => exact absurd (by decide) (h '$' List.mem_cons_self)
  | case4 => exact absurd (by decide) (h '`' List.mem_cons_self)
  | case5 c rest h1 h2 h3 ih =>
    rw [inert]
    · exact ih (h.mono (List.subset_cons_self c rest))
    all_goals assumption

section ThreeWords

variable {first second third tail : Chars}

def threeWords (first second third : Word) : Chars := first ++ ' ' :: (second ++ ' ' :: third)

def Ends (tail : Chars) : Prop := tail = [] ∨ tail = ['\n']

theorem lex_end (htail : Ends tail) (fuel line : Nat) :
    lex (fuel + tail.length + 1) line [] tail = ⟨tail.map fun _ ↦ ⟨line, .newline⟩, [], none⟩ := by
  obtain rfl | rfl := htail <;> rfl

theorem tokenize_threeWords (hfirst : isPlainWord first = true) (hsecond : isPlainWord second = true)
    (hthird : Bare third) (htail : Ends tail) :
    tokenize (threeWords first second third ++ tail) = (⟨1, .word first⟩ :: ⟨1, .word second⟩ :: ⟨1, .word third⟩ ::
      tail.map fun _ ↦ ⟨1, .newline⟩, none) := by
  have hends : endsHere tail = true := by
    obtain rfl | rfl := htail <;> rfl
  have hangle {c : Char} (hc : c = '<' ∨ c = '>') : c ∉ third ++ tail := by
    intro hmem
    obtain hmem | hmem := List.mem_append.mp hmem
    · have hplain := List.all_eq_true.mp hthird.plain c hmem
      obtain rfl | rfl := hc <;> exact absurd hplain (by decide)
    · obtain rfl | rfl := hc <;> obtain rfl | rfl := htail <;> exact absurd hmem (by decide)
  have hnone := descriptorAt?_eq_none (hangle (.inl rfl)) (hangle (.inr rfl))
  have hlength : (threeWords first second third ++ tail).length + 1 =
      first.length - 1 + (second.length - 1) + (third.length - 1) + tail.length + 1 + 5 := by
    have hfirst := List.length_pos_iff.mpr (bare_of_isPlainWord hfirst).nonempty
    have hsecond := List.length_pos_iff.mpr (bare_of_isPlainWord hsecond).nonempty
    have hthird := List.length_pos_iff.mpr hthird.nonempty
    simp only [threeWords, List.length_append, List.length_cons]
    omega
  have htext : threeWords first second third ++ tail = first ++ ' ' :: (second ++ ' ' :: (third ++ tail)) := by
    simp [threeWords]
  rw [tokenize, hlength, htext, lex_word hfirst rfl, lex_space rfl, lex_word hsecond rfl, lex_space rfl,
    lex_bare hthird hends hnone, lex_end htail]
  obtain rfl | rfl := htail <;> rfl

end ThreeWords

section Expanding

variable {w : Word}

theorem expand_plain (run : Substitution) (h : w.all isPlain = true) {fuel : Nat} (hfuel : w.length < fuel) :
    expand run fuel .bare w = pure (w.map fun c ↦ .fixed ⟨c, false⟩) := by
  induction w generalizing fuel with
  | nil =>
    obtain ⟨fuel, rfl⟩ := Nat.exists_eq_add_one_of_ne_zero (Nat.ne_of_gt hfuel)
    simp [expand]
  | cons c w ih =>
    obtain ⟨fuel, rfl⟩ := Nat.exists_eq_add_one_of_ne_zero (Nat.ne_of_gt (Nat.zero_lt_of_lt hfuel))
    rw [List.all_cons, Bool.and_eq_true] at h
    have hc := isPlain_ne h.1
    have hrest := ih h.2 (Nat.lt_of_succ_lt_succ hfuel)
    rw [expand]
    · simp [hc, hrest]
    all_goals simp [hc]

theorem fields_fixed (separators : Chars) (hne : w ≠ []) :
    fields separators (w.map fun c ↦ .fixed ⟨c, false⟩) = [w] := by
  have hfold (w front : Chars) : (w.map fun c ↦ Piece.fixed ⟨c, false⟩).foldl (Fields.step separators)
      ⟨[], some front, false⟩ = ⟨[], some (front ++ w), false⟩ := by
    induction w generalizing front with
    | nil => simp
    | cons c w ih => simp [Fields.step, Fields.push, ih]
  rcases w with _ | ⟨c, w⟩
  · exact absurd rfl hne
  · simp [fields, Fields.step, Fields.push, Fields.close, hfold]

/-- A bare word stands for itself, whatever the state of the shell. -/
theorem expandFields_bare (run : Substitution) (h : Bare w) (s : State) :
    (expandFields run w).run.run s = (.ok [w], s) := by
  have hfuel : w.length < textFuel w := by
    unfold textFuel
    omega
  have hfields := fields_fixed ((s.scope.valueOf? "IFS").getD standardSeparators) h.nonempty
  rw [expandFields, expand_plain run h.plain hfuel]
  exact congrArg (fun ws ↦ (Except.ok ws, s)) hfields

end Expanding

end SelfHealing.Shell
