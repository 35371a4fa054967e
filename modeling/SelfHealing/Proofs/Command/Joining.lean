import Mathlib
import SelfHealing.Proofs.Command.Calls

/-!
The output of a command as one text. Main statement: each terminator of a line becomes the separator and all else is
kept, except that a separator which replaces a carriage return with its newline has its own newlines replaced too.
-/

namespace SelfHealing

namespace Text

inductive Terminator
  | newline
  | pair

def Terminator.chars : Terminator → List Char
  | newline => ['\n']
  | pair => ['\r', '\n']

structure Line where
  body : List Char
  terminator : Terminator

/-- A line up to its first newline. A carriage return just before the newline is part of the terminator. -/
structure Line.Proper (l : Line) : Prop where
  unbroken : '\n' ∉ l.body
  whole : l.terminator = .newline → l.body.getLast? ≠ some '\r'

structure Layout where
  lines : List Line
  tail : List Char

namespace Layout

def render (replaced : Terminator → List Char) (l : Layout) : List Char :=
  l.lines.flatMap (fun line ↦ line.body ++ replaced line.terminator) ++ l.tail

structure Lays (l : Layout) (text : List Char) : Prop where
  text : l.render Terminator.chars = text
  proper : ∀ line ∈ l.lines, line.Proper
  unended : '\n' ∉ l.tail

theorem render_cons (replaced : Terminator → List Char) (line : Line) (rest : List Line) (tail : List Char) :
    (⟨line :: rest, tail⟩ : Layout).render replaced =
      line.body ++ (replaced line.terminator ++ (⟨rest, tail⟩ : Layout).render replaced) := by
  simp only [render, List.flatMap_cons, List.append_assoc]

theorem lays_nil : (⟨[], []⟩ : Layout).Lays [] := ⟨rfl, List.forall_mem_nil _, List.not_mem_nil⟩

theorem Lays.terminated {l : Layout} {text : List Char} (h : l.Lays text) (t : Terminator) :
    (⟨⟨[], t⟩ :: l.lines, l.tail⟩ : Layout).Lays (t.chars ++ text) where
  text := by
    rw [render_cons, ← h.text]
    rfl
  proper := List.forall_mem_cons.mpr ⟨⟨List.not_mem_nil, by simp⟩, h.proper⟩
  unended := h.unended

theorem Lays.cons {l : Layout} {text : List Char} (h : l.Lays text) {c : Char} (hc : c ≠ '\n')
    (hpair : c = '\r' → text.head? ≠ some '\n') : ∃ l', Lays l' (c :: text) := by
  obtain ⟨lines, tail⟩ := l
  rcases lines with _ | ⟨⟨body, t⟩, rest⟩
  · refine ⟨⟨[], c :: tail⟩, by rw [← h.text]; rfl, List.forall_mem_nil _, ?_⟩
    exact List.not_mem_cons_of_ne_of_not_mem hc.symm h.unended
  · obtain ⟨hproper, hrest⟩ := List.forall_mem_cons.mp h.proper
    have htext := h.text
    rw [render_cons] at htext
    refine ⟨⟨⟨c :: body, t⟩ :: rest, tail⟩, ?_, List.forall_mem_cons.mpr ⟨⟨?_, fun ht ↦ ?_⟩, hrest⟩, h.unended⟩
    · rw [render_cons, ← htext]
      rfl
    · exact List.not_mem_cons_of_ne_of_not_mem hc.symm hproper.unbroken
    · have hbody := hproper.whole ht
      subst ht
      rcases body with _ | ⟨b, body⟩
      · intro hlast
        have hcr : c = '\r' := by simpa using hlast
        exact hpair hcr (by rw [← htext]; rfl)
      · rwa [List.getLast?_cons_cons]

theorem exists_lays (text : List Char) : ∃ l : Layout, l.Lays text := by
  induction text using replacePairs.induct with
  | case1 rest ih =>
    obtain ⟨l, h⟩ := ih
    exact ⟨_, h.terminated .pair⟩
  | case2 c rest hpair ih =>
    obtain ⟨l, h⟩ := ih
    by_cases hc : c = '\n'
    · subst hc
      exact ⟨_, h.terminated .newline⟩
    · refine h.cons hc fun hcr hhead ↦ ?_
      obtain ⟨after, rfl⟩ : ∃ after, rest = '\n' :: after := List.head?_eq_some_iff.mp hhead
      exact hpair after hcr rfl
  | case3 => exact ⟨_, lays_nil⟩

end Layout

section Replacing

variable {separator body rest : List Char}

theorem replacePairs_pair (separator rest : List Char) :
    replacePairs separator ('\r' :: '\n' :: rest) = separator ++ replacePairs separator rest := by
  rw [replacePairs]

theorem replacePairs_cons {c : Char} (h : c = '\r' → rest.head? ≠ some '\n') :
    replacePairs separator (c :: rest) = c :: replacePairs separator rest := by
  rw [replacePairs]
  rintro after rfl rfl
  exact h rfl rfl

/-- A stretch without newlines is kept, unless its last character makes a pair with what follows. -/
theorem replacePairs_append (hbody : '\n' ∉ body) (h : body.getLast? = some '\r' → rest.head? ≠ some '\n') :
    replacePairs separator (body ++ rest) = body ++ replacePairs separator rest := by
  induction body with
  | nil => rfl
  | cons c body ih =>
    obtain ⟨-, hkept⟩ := not_or.mp (mt List.mem_cons.mpr hbody)
    have hnext : c = '\r' → (body ++ rest).head? ≠ some '\n' := by
      rintro rfl
      rcases body with _ | ⟨b, body⟩
      · exact h rfl
      · have hb : b ≠ '\n' := fun hb ↦ hkept (hb ▸ List.mem_cons_self)
        simpa using hb
    rw [List.cons_append, replacePairs_cons hnext, ih hkept, List.cons_append]
    intro hlast
    apply h
    rcases body with _ | ⟨b, body⟩
    · simp at hlast
    · rwa [List.getLast?_cons_cons]

theorem replaceNewlines_append (separator front back : List Char) :
    replaceNewlines separator (front ++ back) = replaceNewlines separator front ++ replaceNewlines separator back :=
  List.flatMap_append

theorem replaceNewlines_of_not_mem (h : '\n' ∉ body) : replaceNewlines separator body = body := by
  induction body with
  | nil => rfl
  | cons c body ih =>
    obtain ⟨hc, hrest⟩ := not_or.mp (mt List.mem_cons.mpr h)
    rw [replaceNewlines, List.flatMap_cons, if_neg (Ne.symm hc)]
    exact congrArg (c :: ·) (ih hrest)

theorem replaceNewlines_newline (separator : List Char) : replaceNewlines separator ['\n'] = separator := by
  simp [replaceNewlines]

theorem length_replaceNewlines (separator cs : List Char) :
    (replaceNewlines separator cs).length + cs.count '\n' = cs.length + cs.count '\n' * separator.length := by
  induction cs with
  | nil => simp [replaceNewlines]
  | cons c cs ih =>
    rw [← List.singleton_append, replaceNewlines_append, List.length_append, List.singleton_append]
    by_cases hc : c = '\n'
    · rw [hc, replaceNewlines_newline, List.count_cons_self, List.length_cons, Nat.add_mul]
      omega
    · have hkept : replaceNewlines separator [c] = [c] := replaceNewlines_of_not_mem (by simpa using Ne.symm hc)
      rw [hkept, List.count_cons_of_ne hc, List.length_singleton, List.length_cons]
      omega

/-- A separator comes to itself only if it holds no newline, or is one. -/
theorem replaceNewlines_self (separator : List Char) :
    (replaceNewlines separator separator).length = separator.length ↔ '\n' ∉ separator ∨ separator = ['\n'] := by
  constructor
  · intro hsame
    by_cases hmem : '\n' ∈ separator
    · right
      have hlength := length_replaceNewlines separator separator
      have hcount : 0 < separator.count '\n' := List.count_pos_iff.mpr hmem
      have hone : separator.length = 1 := by
        have hmul : separator.count '\n' * 1 = separator.count '\n' * separator.length := by omega
        exact (Nat.eq_of_mul_eq_mul_left hcount hmul).symm
      obtain ⟨c, rfl⟩ := List.length_eq_one_iff.mp hone
      rw [List.mem_singleton.mp hmem]
    · exact .inl hmem
  · rintro (hmem | rfl)
    · rw [replaceNewlines_of_not_mem hmem]
    · rw [replaceNewlines_newline]

theorem length_le_replaceNewlines_self (separator : List Char) :
    separator.length ≤ (replaceNewlines separator separator).length := by
  have hlength := length_replaceNewlines separator separator
  rcases Nat.eq_zero_or_pos separator.length with hzero | hpos
  · omega
  · have hmul := Nat.le_mul_of_pos_right (separator.count '\n') hpos
    omega

end Replacing

/-- What is put in for a terminator: the separator. In place of a pair its newlines are replaced in turn. -/
def inserted (separator : List Char) : Terminator → List Char
  | .newline => separator
  | .pair => separator.flatMap fun c ↦ if c = '\n' then separator else [c]

namespace Layout

variable {l : Layout} {text : List Char}

theorem joined_render (separator : List Char) (lines : List Line) (tail : List Char)
    (hlines : ∀ line ∈ lines, line.Proper) (htail : '\n' ∉ tail) :
    replaceNewlines separator (replacePairs separator ((⟨lines, tail⟩ : Layout).render Terminator.chars)) =
      (⟨lines, tail⟩ : Layout).render (inserted separator) := by
  induction lines with
  | nil =>
    have hkept : replacePairs separator (tail ++ []) = tail ++ [] := replacePairs_append htail (by simp)
    rw [List.append_nil] at hkept
    change replaceNewlines separator (replacePairs separator tail) = tail
    rw [hkept, replaceNewlines_of_not_mem htail]
  | cons line rest ih =>
    obtain ⟨hline, hrest⟩ := List.forall_mem_cons.mp hlines
    obtain ⟨body, t⟩ := line
    have hunbroken : '\n' ∉ body := hline.unbroken
    simp only [render_cons]
    rw [← ih hrest]
    cases t with
    | newline =>
      have hlast : body.getLast? ≠ some '\r' := hline.whole rfl
      rw [replacePairs_append hunbroken fun h ↦ absurd h hlast, Terminator.chars, List.singleton_append,
        replacePairs_cons (by simp), ← List.singleton_append, replaceNewlines_append, replaceNewlines_append,
        replaceNewlines_of_not_mem hunbroken, replaceNewlines_newline]
      rfl
    | pair =>
      rw [replacePairs_append hunbroken (by simp [Terminator.chars]), Terminator.chars, List.cons_append,
        List.singleton_append, replacePairs_pair, replaceNewlines_append, replaceNewlines_append,
        replaceNewlines_of_not_mem hunbroken]
      rfl

theorem Lays.joined (h : l.Lays text) (separator : List Char) :
    replaceNewlines separator (replacePairs separator text) = l.render (inserted separator) := by
  rw [← h.text]
  exact joined_render separator l.lines l.tail h.proper h.unended

theorem length_render (replaced : Terminator → List Char) (l : Layout) :
    (l.render replaced).length =
      (l.lines.map fun line ↦ line.body.length + (replaced line.terminator).length).sum + l.tail.length := by
  simp only [render, List.length_append, List.length_flatMap]

/-- The separator is put in as it is, unless it stands for a pair and holds newlines of its own. -/
theorem render_inserted_iff (separator : List Char) (l : Layout) :
    l.render (inserted separator) = l.render (fun _ ↦ separator) ↔
      (∀ line ∈ l.lines, line.terminator = .newline) ∨ '\n' ∉ separator ∨ separator = ['\n'] := by
  have hpair : inserted separator .pair = replaceNewlines separator separator := rfl
  constructor
  · intro hsame
    by_contra hgrown
    obtain ⟨hlines, hseparator⟩ := not_or.mp hgrown
    have hle : separator.length ≤ (inserted separator .pair).length := length_le_replaceNewlines_self separator
    have hne : (inserted separator .pair).length ≠ separator.length :=
      mt (replaceNewlines_self separator).mp hseparator
    -- The text is longer than it should be by what each separator in the place of a pair has grown.
    have hlonger : (l.lines.map fun line ↦ line.body.length + separator.length).sum <
        (l.lines.map fun line ↦ line.body.length + (inserted separator line.terminator).length).sum := by
      apply List.sum_lt_sum
      · rintro ⟨body, _ | _⟩ -
        · exact Nat.le_refl _
        · exact Nat.add_le_add_left hle _
      · push Not at hlines
        obtain ⟨⟨body, _ | _⟩, hmem, hne'⟩ := hlines
        · exact absurd rfl hne'
        · exact ⟨_, hmem, Nat.add_lt_add_left (Nat.lt_of_le_of_ne hle hne.symm) _⟩
    have hlength := congrArg List.length hsame
    rw [length_render, length_render] at hlength
    omega
  · rintro (hlines | hmem | rfl)
    · have hbodies : ∀ line ∈ l.lines, line.body ++ inserted separator line.terminator = line.body ++ separator := by
        intro line hline
        rw [hlines line hline]
        rfl
      rw [render, render, List.flatMap_congr hbodies]
    · have hkept : inserted separator = fun _ ↦ separator := by
        funext t
        cases t
        · rfl
        · rw [hpair, replaceNewlines_of_not_mem hmem]
      rw [hkept]
    · have hkept : inserted ['\n'] = fun _ ↦ ['\n'] := by
        funext t
        cases t <;> rfl
      rw [hkept]

end Layout

end Text

namespace Command

open Net Observation Text

section Joined

variable {W : Type} (o : Outside W) (s : Setup) {host : Address} {command text : String} {w : W}

theorem executeToString_course (hok : (perform ((o.executor s).execute host command) w).result = some (.ok text))
    (hne : text ≠ "") (separator : String) :
    perform ((o.executor s).executeToString host command separator) w =
      { perform ((o.executor s).execute host command) w with
        result := some (.ok (joinLines separator text)) } := by
  unfold Executor.executeToString
  rw [perform_bind]
  rcases hcourse : perform ((o.executor s).execute host command) w with ⟨result, v, events⟩
  rw [hcourse] at hok
  obtain rfl : result = some (.ok text) := hok
  have hwritten : ¬(text.isEmpty && decide ((o.executor s).route host = .there)) = true :=
    fun h ↦ hne (Executor.lacks_text_iff.mp h).1
  rw [Course.andThen_ok, if_neg hwritten]
  simp only [perform_pure, Course.after, List.append_nil]

/-- A text that a command has written is given back with a separator in the place of each terminator, and nothing else
is changed. Every text has such lines. What stands for a carriage return and a newline is the separator with its own
newlines replaced in turn; that is the separator itself exactly if it holds no newline, or is one. -/
theorem executeToString_lays (hok : (perform ((o.executor s).execute host command) w).result = some (.ok text))
    (hne : text ≠ "") (separator : String) :
    (∃ l : Layout, l.Lays text.toList) ∧
      ∀ l : Layout, l.Lays text.toList →
        perform ((o.executor s).executeToString host command separator) w =
          { perform ((o.executor s).execute host command) w with
            result := some (.ok (String.ofList (l.render (inserted separator.toList)))) } ∧
        (l.render (inserted separator.toList) = l.render (fun _ ↦ separator.toList) ↔
          (∀ line ∈ l.lines, line.terminator = .newline) ∨ '\n' ∉ separator.toList ∨ separator = "\n") := by
  refine ⟨Layout.exists_lays text.toList, fun l hl ↦ ⟨?_, ?_⟩⟩
  · rw [executeToString_course o s hok hne, joinLines, hl.joined]
  · have hone : separator = "\n" ↔ separator.toList = ['\n'] := by
      rw [← String.toList_inj]
      rfl
    rw [hone]
    exact Layout.render_inserted_iff separator.toList l

end Joined

def writing (text : String) : Outside Unit :=
  { Outside.agreeing [] with command := fun _ _ _ _ _ w ↦ (([], some (.ok ⟨0, text⟩)), w) }

def mixedLines : Layout := ⟨[⟨['a'], .pair⟩, ⟨['b'], .newline⟩], []⟩

theorem mixedLines_lays : mixedLines.Lays "a\r\nb\n".toList where
  text := by decide
  proper line hline := by
    simp only [mixedLines, List.mem_cons, List.not_mem_nil, or_false] at hline
    rcases hline with rfl | rfl
    · exact ⟨by decide, by simp⟩
    · exact ⟨by decide, fun _ ↦ by decide⟩
  unended := List.not_mem_nil

theorem writing_result (text : String) : (perform (((writing text).executor
    (.oneHost (.v4 ⟨10, 0, 0, 9⟩) "root")).execute (.v4 ⟨10, 0, 0, 9⟩) "report") ()).result = some (.ok text) := rfl

/-- A comma joins lines of both kinds. -/
theorem executeToString_lays_comma :
    (perform (((writing "a\r\nb\n").executor (.oneHost (.v4 ⟨10, 0, 0, 9⟩) "root")).execute
        (.v4 ⟨10, 0, 0, 9⟩) "report") ()).result = some (.ok "a\r\nb\n") ∧ "a\r\nb\n" ≠ "" ∧
      (perform (((writing "a\r\nb\n").executor (.oneHost (.v4 ⟨10, 0, 0, 9⟩) "root")).executeToString
        (.v4 ⟨10, 0, 0, 9⟩) "report" ",") ()).result = some (.ok "a,b,") := by
  have hwritten := writing_result "a\r\nb\n"
  have hjoined := (executeToString_lays _ _ hwritten (by decide) ",").2 mixedLines mixedLines_lays
  refine ⟨hwritten, by decide, ?_⟩
  rw [hjoined.1, hjoined.2.mpr (.inr (.inl (by decide)))]
  rfl

/-- A separator that holds a newline is not put in once for every terminator. -/
theorem executeToString_twice :
    ¬∀ (W : Type) (o : Outside W) (s : Setup) (host : Address) (command text separator : String) (w : W) (l : Layout),
      (perform ((o.executor s).execute host command) w).result = some (.ok text) → text ≠ "" → l.Lays text.toList →
        (perform ((o.executor s).executeToString host command separator) w).result =
          some (.ok (String.ofList (l.render fun _ ↦ separator.toList))) := by
  intro h
  have hwritten := writing_result "a\r\nb\n"
  have honce := h Unit _ _ _ _ _ ",\n" () mixedLines hwritten (by decide) mixedLines_lays
  rw [executeToString_course _ _ hwritten (by decide)] at honce
  have htwice : joinLines ",\n" "a\r\nb\n" = "a,,\nb,\n" := by decide
  have hclaimed : String.ofList (mixedLines.render fun _ ↦ ",\n".toList) = "a,\nb,\n" := by decide
  rw [htwice, hclaimed] at honce
  simp at honce

end Command

end SelfHealing
