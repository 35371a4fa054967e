import Mathlib
import SelfHealing.Command.Privilege
import SelfHealing.Proofs.Shell.Document
import SelfHealing.Proofs.Shell.Words
import SelfHealing.Shell.Process

/-!
What a shell makes of a command that is to run as the superuser. Main statement: the privileged shell receives the
command as it is written if none of its lines is the delimiter and nothing in it is expanded; otherwise it may not.
-/

namespace SelfHealing.Shell

def delimiter : Chars := ['E', 'O', 'F']

def privileged (body : Chars) : Command :=
  .simple 1 [] ["sudo".toList, "-E".toList, "/bin/sh".toList] [⟨0, .document true, body⟩]

theorem program_privileged (fuel : Nat) (e : TextEnd) (body : Chars) (rest : List Located) :
    Parser.program (fuel + 1) e (⟨1, .word "sudo".toList⟩ :: ⟨1, .word "-E".toList⟩ :: ⟨1, .word "/bin/sh".toList⟩ ::
      ⟨1, .document none true body⟩ :: ⟨1, .newline⟩ :: rest) =
      (privileged body :: (Parser.program fuel e rest).1, (Parser.program fuel e rest).2) := by
  cbv

def wrapped (text : Chars) : Chars :=
  "sudo".toList ++ ' ' :: ("-E".toList ++ ' ' :: ("/bin/sh".toList ++ ' ' :: '<' :: '<' :: (delimiter ++ '\n' :: text)))

theorem length_wrapped (text : Chars) : (wrapped text).length = text.length + 22 := by
  simp [wrapped, delimiter]

theorem ofString_wrapPrivileged (c : String) :
    ofString (wrapPrivileged c) = wrapped (unlines ((ofString c).splitOn '\n') ++ delimiter) := by
  have hopening : ofString "sudo -E /bin/sh <<EOF\n" = "sudo -E /bin/sh <<EOF\n".toList := by decide +kernel
  have hclosing : ofString "\nEOF" = '\n' :: delimiter := by decide
  have happend (front back : String) :
      ofString (front ++ c ++ back) = ofString front ++ ofString c ++ ofString back := by
    rw [ofString_append, ofString_append]
  have hwrap : ofString (wrapPrivileged c) =
      ofString "sudo -E /bin/sh <<EOF\n" ++ ofString c ++ ofString "\nEOF" := happend _ _
  rw [hwrap, hopening, hclosing, unlines_splitOn]
  simp [wrapped, delimiter]

/-- However the lines read, there is one command whose document is the lines before the first delimiter, and then
whatever comes after that. -/
theorem tokenize_wrapped {lines : List Chars} (hlines : ∀ line ∈ lines, '\n' ∉ line) :
    ∃ fuel line, (leftOver delimiter lines).length < fuel ∧
      tokenize (wrapped (unlines lines ++ delimiter)) =
        (⟨1, .word "sudo".toList⟩ :: ⟨1, .word "-E".toList⟩ :: ⟨1, .word "/bin/sh".toList⟩ ::
          ⟨1, .document none true (unlines (lines.takeWhile (· ≠ delimiter)))⟩ :: ⟨1, .newline⟩ ::
            fill (lex fuel line [] (leftOver delimiter lines)).tokens
              (lex fuel line [] (leftOver delimiter lines)).bodies,
          (lex fuel line [] (leftOver delimiter lines)).error?) := by
  have hlength : (unlines lines ++ delimiter).length = (unlines lines).length + 3 := List.length_append
  have hdocument :
      takeDocument ((unlines lines ++ delimiter).length + 1) ⟨delimiter, false⟩ (unlines lines ++ delimiter) =
        (unlines (lines.takeWhile (· ≠ delimiter)), leftOver delimiter lines) := by
    refine takeDocument_unlines rfl (by decide) hlines ?_
    have hle := length_le_unlines lines
    omega
  have hdocuments : takeDocuments (unlines lines ++ delimiter) [⟨delimiter, false⟩] =
      ([unlines (lines.takeWhile (· ≠ delimiter))], leftOver delimiter lines) := by
    simp only [takeDocuments, hdocument]
  have hfuel : (wrapped (unlines lines ++ delimiter)).length + 1 = (unlines lines).length + 18 + 8 := by
    rw [length_wrapped]
    omega
  refine ⟨(unlines lines).length + 18, 1 + 1 + countLines ((unlines lines ++ delimiter).take
    ((unlines lines ++ delimiter).length - (leftOver delimiter lines).length)), ?_, ?_⟩
  · have hle : (leftOver delimiter lines).length ≤ (unlines lines).length + 3 := length_leftOver_le delimiter lines
    omega
  · rw [tokenize, hfuel, wrapped, lex_word (by decide) rfl, lex_space rfl, lex_word (by decide) rfl, lex_space rfl,
      lex_word (by decide) rfl, lex_space rfl, lex_document (by decide) (by decide) rfl, lex_newline, List.nil_append,
      lexAfter, hdocuments]
    rfl

/-- A wrapped command reads as one privileged shell, which receives the command as it is written with a newline at its
end, whatever the state of the shell that starts it. -/
def Intact (c : String) : Prop :=
  ∃ body, parseScript (ofString (wrapPrivileged c)) = ([privileged body], none) ∧
    ∀ run s, (redirect run ⟨0, .document true, body⟩).run.run s = (.ok true, s.receiving (ofString c ++ ['\n']))

theorem parse_wrapped {lines : List Chars} (hlines : ∀ line ∈ lines, '\n' ∉ line) (hnone : delimiter ∉ lines) :
    parseScript (wrapped (unlines lines ++ delimiter)) = ([privileged (unlines lines)], none) := by
  have hdelimiter : delimiter ≠ [] := by decide
  obtain ⟨fuel, line, hfuel, htokens⟩ := tokenize_wrapped hlines
  rw [(leftOver_eq_nil hdelimiter).mpr hnone] at hfuel htokens
  obtain ⟨fuel, rfl⟩ := Nat.exists_eq_add_one_of_ne_zero (Nat.ne_of_gt hfuel)
  have hall : lines.takeWhile (· ≠ delimiter) = lines := by
    refine List.takeWhile_eq_self_iff.mpr fun line h ↦ ?_
    simpa using fun heq : line = delimiter ↦ hnone (heq ▸ h)
  rw [lex_nil, hall] at htokens
  rw [parseScript, htokens]
  exact program_privileged _ _ _ _

/-- A script without any command and any fault consists of newlines. -/
theorem newline_of_program {fuel : Nat} {e : TextEnd} {tokens : List Located}
    (h : Parser.program (fuel + 1) e tokens = ([], none)) : (∀ t ∈ tokens, t.token = .newline) ∧ e.error? = none := by
  rw [Parser.program] at h
  split at h
  · rename_i hnil
    have herror : e.error? = none := by simpa using (Prod.mk.inj h).2
    refine ⟨fun t ht ↦ ?_, herror⟩
    simpa using List.dropWhile_eq_nil_iff.mp hnil t ht
  · split at h
    · simp at h
    · simp at h

/-- After the delimiter there is always something left over: at least the last line. -/
theorem delimiter_not_mem_of_parse {lines : List Chars} (hlines : ∀ line ∈ lines, '\n' ∉ line) {body : Chars}
    (h : parseScript (wrapped (unlines lines ++ delimiter)) = ([privileged body], none)) : delimiter ∉ lines := by
  intro hmem
  obtain ⟨fuel, line, hfuel, htokens⟩ := tokenize_wrapped hlines
  rw [parseScript, htokens] at h
  simp only [List.length_cons, program_privileged] at h
  obtain ⟨hcommands, hfault⟩ := Prod.mk.inj h
  obtain ⟨hnewlines, herror⟩ := newline_of_program (Prod.ext (List.cons.inj hcommands).2 hfault)
  rcases lex_speaks (by decide) (endsIn_leftOver hmem) hfuel line with htoken | hfaulty
  · obtain ⟨t, ht, hne⟩ := exists_mem_fill (lex fuel line [] (leftOver delimiter lines)).bodies htoken
    exact hne (hnewlines t ht)
  · exact hfaulty herror

theorem parse_wrapPrivileged {c : String} (hlines : delimiter ∉ (ofString c).splitOn '\n') :
    parseScript (ofString (wrapPrivileged c)) = ([privileged (ofString c ++ ['\n'])], none) := by
  rw [ofString_wrapPrivileged, parse_wrapped (fun line h ↦ newline_not_mem_of_mem_splitOn h) hlines, unlines_splitOn]

theorem delimiter_not_mem_of_privileged {c : String} {body : Chars}
    (h : parseScript (ofString (wrapPrivileged c)) = ([privileged body], none)) :
    delimiter ∉ (ofString c).splitOn '\n' := by
  rw [ofString_wrapPrivileged] at h
  exact delimiter_not_mem_of_parse (fun line h ↦ newline_not_mem_of_mem_splitOn h) h

theorem delimiter_not_mem_of_intact {c : String} (h : Intact c) : delimiter ∉ (ofString c).splitOn '\n' := by
  obtain ⟨body, hparse, -⟩ := h
  exact delimiter_not_mem_of_privileged hparse

/-- A command without anything to expand is run as it is written if and only if no line of it is the delimiter. -/
theorem wrapPrivileged_intact {c : String} (hinert : inert (ofString c ++ ['\n']) = true) :
    Intact c ↔ delimiter ∉ (ofString c).splitOn '\n' := by
  refine ⟨delimiter_not_mem_of_intact, fun hlines ↦ ?_⟩
  exact ⟨ofString c ++ ['\n'], parse_wrapPrivileged hlines, fun run s ↦ redirect_inert run hinert s⟩

/-- Quotes, comments and several lines are as they are. -/
theorem wrapPrivileged_intact_lines :
    inert (ofString "systemctl stop 'a b' # EOF\necho \"done; $ 5\" | cat" ++ ['\n']) = true ∧
      Intact "systemctl stop 'a b' # EOF\necho \"done; $ 5\" | cat" := by
  have hlines : delimiter ∉ (ofString "systemctl stop 'a b' # EOF\necho \"done; $ 5\" | cat").splitOn '\n' := by
    decide +kernel
  have hinert : inert (ofString "systemctl stop 'a b' # EOF\necho \"done; $ 5\" | cat" ++ ['\n']) = true := by
    decide +kernel
  exact ⟨hinert, (wrapPrivileged_intact hinert).mpr hlines⟩

/-- A line that is the delimiter ends the document early, and the lines after it are left to the first shell; a command
to be substituted is run by the first shell too. -/
theorem wrapPrivileged_not_intact :
    ¬Intact "true\nEOF\necho leaked >&2" ∧ ¬Intact "echo $(echo expanded >&2)" := by
  constructor
  · intro h
    have hline : delimiter ∈ (ofString "true\nEOF\necho leaked >&2").splitOn '\n' := by decide +kernel
    exact delimiter_not_mem_of_intact h hline
  · rintro ⟨body, hparse, hreceived⟩
    have hlines : delimiter ∉ (ofString "echo $(echo expanded >&2)").splitOn '\n' := by decide +kernel
    rw [parse_wrapPrivileged hlines] at hparse
    obtain rfl : ofString "echo $(echo expanded >&2)" ++ ['\n'] = body := by simpa [privileged] using hparse
    have hinput := congrArg (·.2.world.input) (hreceived (fun _ ↦ pure []) (initialState []))
    have hexpanded : ((redirect (fun _ ↦ pure [])
        ⟨0, .document true, ofString "echo $(echo expanded >&2)" ++ ['\n']⟩).run.run (initialState [])).2.world.input =
        "echo \n".toList := by
      decide +kernel
    rw [hexpanded] at hinput
    exact absurd hinput (by decide +kernel)

end SelfHealing.Shell
