import SelfHealing.Proofs.Command.Privilege
import SelfHealing.Proofs.Recovery.Placement
import SelfHealing.Proofs.Shell.Unquoted

/-!
Units of the service manager. Main statement: where nothing in the label of a service is quoted or expanded, the text
that is handed over for a verb is the service manager's command on the unit of that name, if and only if the label is a
bare word.
-/

namespace SelfHealing

namespace Shell

variable (verb : Verb) {unit tail : Chars}

def unitCommand (verb : Verb) (unit : Chars) : Chars := threeWords "systemctl".toList verb.name.toList unit

/-- One simple command of three words, each of which stands for itself: the service manager, the verb and the unit. -/
structure Names (verb : Verb) (unit text : Chars) : Prop where
  words : ∃ ends, (∀ t ∈ ends, t.token = .newline) ∧ tokenize text =
    (⟨1, .word "systemctl".toList⟩ :: ⟨1, .word verb.name.toList⟩ :: ⟨1, .word unit⟩ :: ends, none)
  command : parseScript text = ([.simple 1 [] ["systemctl".toList, verb.name.toList, unit] []], none)
  literal : ∀ run s, ∀ word ∈ ["systemctl".toList, verb.name.toList, unit],
    (expandFields run word).run.run s = (.ok [word], s)

theorem isPlainWord_name (verb : Verb) : isPlainWord verb.name.toList = true := by
  cases verb <;> decide

theorem isPlainWord_systemctl : isPlainWord "systemctl".toList = true := by decide

theorem program_unitCommand (fuel line : Nat) (name unit : Word) (htail : Ends tail) :
    Parser.program (fuel + 2) ⟨line, none⟩ (⟨1, .word "systemctl".toList⟩ :: ⟨1, .word name⟩ ::
      ⟨1, .word unit⟩ :: tail.map fun _ ↦ ⟨1, .newline⟩) =
      ([.simple 1 [] ["systemctl".toList, name, unit] []], none) := by
  obtain rfl | rfl := htail <;> rfl

theorem unquoted_of_plain {w : Word} (h : w.all isPlain = true) : Unquoted w := by
  intro c hc
  have hplain := isPlain_ne (List.all_eq_true.mp h c hc)
  simp [hplain]

theorem unquoted_unitCommand (hunit : Unquoted unit) (htail : Ends tail) :
    Unquoted (unitCommand verb unit ++ tail) := by
  have hmanager := unquoted_of_plain (bare_of_isPlainWord isPlainWord_systemctl).plain
  have hname := unquoted_of_plain (bare_of_isPlainWord (isPlainWord_name verb)).plain
  have hends : Unquoted tail := by
    obtain rfl | rfl := htail
    · exact List.forall_mem_nil _
    · exact List.forall_mem_singleton.mpr (by decide)
  have hspace : ' ' ∉ ['\\', '\'', '"', '$', '`'] := by decide
  exact List.forall_mem_append.mpr ⟨List.forall_mem_append.mpr ⟨hmanager, List.forall_mem_cons.mpr ⟨hspace,
    List.forall_mem_append.mpr ⟨hname, List.forall_mem_cons.mpr ⟨hspace, hunit⟩⟩⟩⟩, hends⟩

theorem names_iff (hunit : Unquoted unit) (htail : Ends tail) :
    Names verb unit (unitCommand verb unit ++ tail) ↔ Bare unit := by
  constructor
  · intro h
    obtain ⟨ends, -, htokens⟩ := h.words
    have hmem : ⟨1, .word unit⟩ ∈ (tokenize (unitCommand verb unit ++ tail)).1 := by simp [htokens]
    exact bare_of_tokenize (unquoted_unitCommand verb hunit htail) hmem rfl
  · intro h
    have htokens := tokenize_threeWords isPlainWord_systemctl (isPlainWord_name verb) h htail
    refine ⟨⟨_, by simp, htokens⟩, ?_, fun run s word hword ↦ expandFields_bare run ?_ s⟩
    · rw [parseScript, unitCommand, htokens]
      exact program_unitCommand _ _ verb.name.toList unit htail
    · simp only [List.mem_cons, List.not_mem_nil, or_false] at hword
      rcases hword with rfl | rfl | rfl
      · exact bare_of_isPlainWord isPlainWord_systemctl
      · exact bare_of_isPlainWord (isPlainWord_name verb)
      · exact h

theorem ofString_command (verb : Verb) (service : String) :
    ofString ((ServiceAction.lifecycle verb).command service) = unitCommand verb (ofString service) := by
  have hfront : ofString ("systemctl " ++ verb.name ++ " ") =
      "systemctl".toList ++ ' ' :: (verb.name.toList ++ [' ']) := by
    cases verb <;> decide +kernel
  have hcommand : (ServiceAction.lifecycle verb).command service = "systemctl " ++ verb.name ++ " " ++ service := by
    rw [ServiceAction.command]
    rfl
  rw [hcommand, ofString_append, hfront, unitCommand, threeWords]
  simp

/-- The shell that is given the text runs the command on the unit. For a user who is not the superuser it starts one
privileged shell and nothing else, and that one is given such a text. -/
def Hands (root : Bool) (verb : Verb) (unit text : Chars) : Prop :=
  if root then Names verb unit text
  else ∃ body received, parseScript text = ([privileged body], none) ∧
    (∀ run s, (redirect run ⟨0, .document true, body⟩).run.run s = (.ok true, s.receiving received)) ∧
    Names verb unit received

theorem delimiter_not_mem_of_bare (h : Bare unit) : delimiter ∉ (unitCommand verb unit).splitOn '\n' := by
  have hplain {w : Word} (h : w.all isPlain = true) : '\n' ∉ w := fun hmem ↦
    absurd (List.all_eq_true.mp h '\n' hmem) (by decide)
  have hline : '\n' ∉ unitCommand verb unit := by
    simp only [unitCommand, threeWords, List.mem_append, List.mem_cons, not_or]
    exact ⟨by decide, by decide, hplain (bare_of_isPlainWord (isPlainWord_name verb)).plain, by decide, hplain h.plain⟩
  have hwhole : (unitCommand verb unit).splitOn '\n' = [unitCommand verb unit] :=
    List.splitOnP_eq_singleton fun c hc ↦ by simpa using fun heq : c = '\n' ↦ hline (heq ▸ hc)
  rw [hwhole, List.mem_singleton]
  intro heq
  exact absurd (congrArg List.head? heq) (by simp [delimiter, unitCommand, threeWords])

theorem hands_iff (credential : Credential) (verb : Verb) {service : String} (hservice : Unquoted (ofString service)) :
    Hands credential.isRoot verb (ofString service)
      (ofString (credential.prepare ((ServiceAction.lifecycle verb).command service))) ↔ Bare (ofString service) := by
  have htext := ofString_command verb service
  generalize (ServiceAction.lifecycle verb).command service = command at htext
  unfold Hands Credential.prepare
  cases credential.isRoot with
  | true =>
    have hnames := names_iff verb hservice (.inl rfl)
    rw [List.append_nil] at hnames
    rw [if_pos rfl, if_pos rfl, htext]
    exact hnames
  | false =>
    have hends : Ends ['\n'] := .inr rfl
    have hinert := inert_of_unquoted (unquoted_unitCommand verb hservice hends)
    have hdocument (run : Substitution) := redirect_inert run hinert
    rw [if_neg Bool.false_ne_true, if_neg Bool.false_ne_true]
    constructor
    · rintro ⟨body, received, hparse, hreceived, hnames⟩
      rw [parse_wrapPrivileged (delimiter_not_mem_of_privileged hparse), htext] at hparse
      obtain rfl : unitCommand verb (ofString service) ++ ['\n'] = body := by simpa [privileged] using hparse
      have hinput := congrArg (·.2.world.input)
        ((hdocument (fun _ ↦ pure []) (initialState [])).symm.trans (hreceived (fun _ ↦ pure []) (initialState [])))
      obtain rfl : unitCommand verb (ofString service) ++ ['\n'] = received := hinput
      exact (names_iff verb hservice hends).mp hnames
    · intro h
      have hlines : delimiter ∉ (ofString command).splitOn '\n' := by
        rw [htext]
        exact delimiter_not_mem_of_bare verb h
      have hparse := parse_wrapPrivileged hlines
      rw [htext] at hparse
      exact ⟨_, _, hparse, hdocument, (names_iff verb hservice hends).mpr h⟩

end Shell

namespace Recovery

open Command Net Observation Shell

variable {W : Type}

/-- Nothing in the label is quoted or expanded, is matched with the names of files or stands for a directory; and a
command can hold it. -/
def Literal (label : String) : Prop :=
  ∀ c ∈ ofString label, c ∉ ['\\', '\'', '"', '$', '`', '*', '?', '[', '~', '\x00']

theorem Literal.unquoted {label : String} (h : Literal label) : Unquoted (ofString label) := fun c hc hquoting ↦
  h c hc (List.mem_append_left ['*', '?', '[', '~', '\x00'] hquoting)

/-- The unit that a lifecycle verb is applied to is the one of the label, exactly if the label is a bare word. -/
theorem lifecycle_named (o : Outside W) (s : Setup) (w : W) {action : String} {verb : Verb}
    (haction : ServiceAction.parse action = .lifecycle verb) (a : ServiceAnomaly) (hlabel : Literal a.service)
    {run : CommandRun} (hrun : .ran run ∈ (o.recovery s action (.service a) w).events) :
    Hands run.target.credential.isRoot verb (ofString a.service) (ofString run.text) ↔ Bare (ofString a.service) := by
  obtain ⟨result, hremedy, -⟩ := recover_remedy o s action (.service a) w
  obtain ⟨front, back, hevents⟩ := List.append_of_mem hrun
  obtain ⟨-, pods, -, hran⟩ := hremedy.ran_inv hevents
  cases hran with
  | ran pods host entry run h hentry hc hroute htarget htext =>
    have hcommand : (Anomaly.service a).command action = (ServiceAction.lifecycle verb).command a.service := by
      rw [← haction, ServiceAction.command_parse]
    rw [htarget, htext, hcommand]
    exact hands_iff _ verb hlabel.unquoted

theorem command_ne_empty (verb : Verb) (label : String) : (ServiceAction.lifecycle verb).command label ≠ "" := by
  intro hempty
  have htext := ofString_command verb label
  rw [hempty, show ofString "" = [] from rfl] at htext
  exact absurd htext.symm (by simp [unitCommand, threeWords])

theorem restart_ran (user label : String) :
    ∃ run, .ran run ∈ ((Outside.agreeing (onePod "exporter" "10.0.0.9")).recovery (.oneHost (.v4 ⟨10, 0, 0, 9⟩) user)
        "restart" (.service ⟨label, "exporter", ""⟩) ()).events ∧
      run.target.credential = (Setup.oneHost (.v4 ⟨10, 0, 0, 9⟩) user).registry.resolve
        ⟨[.v4 ⟨10, 0, 0, 9⟩], [], .empty, []⟩ ∧
      run.text = run.target.credential.prepare ((ServiceAction.lifecycle .restart).command label) := by
  have hlist : ((Outside.agreeing (onePod "exporter" "10.0.0.9")).listPods "" ()).1 =
      some (.ok (onePod "exporter" "10.0.0.9")) := rfl
  have hhost : hostIn (onePod "exporter" "10.0.0.9") "exporter" = some (.v4 ⟨10, 0, 0, 9⟩) := rfl
  have hentry : (Setup.oneHost (.v4 ⟨10, 0, 0, 9⟩) user).registry.entry? (.v4 ⟨10, 0, 0, 9⟩) =
      some ⟨[.v4 ⟨10, 0, 0, 9⟩], [], .empty, []⟩ := rfl
  have hparse : ServiceAction.parse "restart" = .lifecycle .restart := rfl
  let target : Target := ⟨.v4 ⟨10, 0, 0, 9⟩, (Setup.oneHost (.v4 ⟨10, 0, 0, 9⟩) user).registry.resolve
    ⟨[.v4 ⟨10, 0, 0, 9⟩], [], .empty, []⟩, []⟩
  have hfound := runOnHostOf_found _ _ hlist hhost hentry ((ServiceAction.lifecycle .restart).command label)
  obtain ⟨v, hv⟩ := (Outside.agreeing (onePod "exporter" "10.0.0.9")).runEach_single
    (.oneHost (.v4 ⟨10, 0, 0, 9⟩) user) target (command_ne_empty .restart label) ()
  refine ⟨(Outside.agreeing (onePod "exporter" "10.0.0.9")).handed (.oneHost (.v4 ⟨10, 0, 0, 9⟩) user) target
    ((ServiceAction.lifecycle .restart).command label) (), ?_, rfl, rfl⟩
  have hran : perform (runOnHostOf ((Outside.agreeing (onePod "exporter" "10.0.0.9")).context
      (.oneHost (.v4 ⟨10, 0, 0, 9⟩) user)) "exporter" "" ((ServiceAction.lifecycle .restart).command label)) () = _ :=
    hfound.trans (congrArg (Course.after _) hv)
  simp only [Outside.recovery, recover, recoverService, hparse, perform_explain, hran]
  exact List.mem_cons_of_mem _ (List.mem_singleton_self _)

/-- A unit that is restarted by a user who is not the superuser. -/
theorem lifecycle_named_wrapped :
    Literal "node-exporter@2.service" ∧
      ∃ run, .ran run ∈ ((Outside.agreeing (onePod "exporter" "10.0.0.9")).recovery (.oneHost (.v4 ⟨10, 0, 0, 9⟩) "ops")
          "restart" (.service ⟨"node-exporter@2.service", "exporter", ""⟩) ()).events ∧
        run.target.credential.isRoot = false ∧
        Hands run.target.credential.isRoot .restart (ofString "node-exporter@2.service") (ofString run.text) := by
  have hlabel : Literal "node-exporter@2.service" := List.all_iff_forall_prop.mp (by decide +kernel)
  obtain ⟨run, hrun, hcredential, -⟩ := restart_ran "ops" "node-exporter@2.service"
  have hnamed := lifecycle_named _ _ () rfl ⟨"node-exporter@2.service", "exporter", ""⟩ hlabel hrun
  exact ⟨hlabel, run, hrun, by rw [hcredential]; rfl, hnamed.mpr ⟨by decide, by decide +kernel, by decide⟩⟩

/-- A label can bring a command of its own, and by a line that ends the document also one for the first shell. -/
theorem lifecycle_not_named :
    ServiceAction.parse "restart" = .lifecycle .restart ∧
      (∃ run, .ran run ∈ ((Outside.agreeing (onePod "exporter" "10.0.0.9")).recovery
          (.oneHost (.v4 ⟨10, 0, 0, 9⟩) "root") "restart" (.service ⟨"x; echo leaked >&2", "exporter", ""⟩) ()).events ∧
        run.target.credential.isRoot = true ∧
        ¬Hands run.target.credential.isRoot .restart (ofString "x; echo leaked >&2") (ofString run.text)) ∧
      ∃ run, .ran run ∈ ((Outside.agreeing (onePod "exporter" "10.0.0.9")).recovery
          (.oneHost (.v4 ⟨10, 0, 0, 9⟩) "ops") "restart" (.service ⟨"x\nEOF\necho leaked >&2", "exporter", ""⟩)
          ()).events ∧
        run.target.credential.isRoot = false ∧
        ¬Hands run.target.credential.isRoot .restart (ofString "x\nEOF\necho leaked >&2") (ofString run.text) := by
  have hnot {label : String} (hlabel : Unquoted (ofString label)) (hspace : (ofString label).all isPlain = false)
      {run : CommandRun}
      (htext : run.text = run.target.credential.prepare ((ServiceAction.lifecycle .restart).command label)) :
      ¬Hands run.target.credential.isRoot .restart (ofString label) (ofString run.text) := by
    intro hands
    rw [htext] at hands
    have hbare := (hands_iff _ .restart hlabel).mp hands
    exact absurd hbare.plain (by simp [hspace])
  obtain ⟨run, hrun, hcredential, htext⟩ := restart_ran "root" "x; echo leaked >&2"
  obtain ⟨run', hrun', hcredential', htext'⟩ := restart_ran "ops" "x\nEOF\necho leaked >&2"
  refine ⟨rfl, ⟨run, hrun, by rw [hcredential]; rfl, hnot ?_ (by decide +kernel) htext⟩,
    run', hrun', by rw [hcredential']; rfl, hnot ?_ (by decide +kernel) htext'⟩
  · exact List.all_iff_forall_prop.mp (by decide +kernel)
  · exact List.all_iff_forall_prop.mp (by decide +kernel)

end Recovery

end SelfHealing
