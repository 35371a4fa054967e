import SelfHealing.Proofs.Recovery.Placement

/-!
Calls of an executor, one after the other. Main statement: whatever is called for, and whatever the calls before came to,
a command goes to the transport of its host for the user and with the variables of one entry, nothing is asked on behalf
of a host that no entry lists, and the status that a command ends with decides on it.
-/

namespace SelfHealing.Command

open Net Observation

inductive Call
  | execute (host : Address) (command : String)
  | executeAll (host : Address) (commands : List String)
  | executeToString (host : Address) (command separator : String)
  | ping (host : Address)

namespace Call

def host : Call → Address
  | execute host _ => host
  | executeAll host _ => host
  | executeToString host _ _ => host
  | ping host => host

def commands : Call → List String
  | execute _ command => [command]
  | executeAll _ commands => commands
  | executeToString _ command _ => [command]
  | ping _ => []

def NeedsText (own : List Address) : Call → Prop
  | executeToString host _ _ => host ∉ own
  | _ => False

def work {m : Type → Type} [Monad m] (e : Executor m) : Call → Task m (Option String)
  | execute host command => do
    let text ← e.execute host command
    return some text
  | executeAll host commands => do
    e.executeAll host commands
    return none
  | executeToString host command separator => do
    let text ← e.executeToString host command separator
    return some text
  | ping host => do
    e.ping host
    return none

end Call

variable {W : Type}

structure Made (W : Type) where
  call : Call
  course : Course W (Except Error (Option String))

/-- Calls made in turn, whatever the ones before came to. After a call without an end there is none. -/
def conduct (e : Executor (Observed W)) : List Call → W → List (Made W)
  | [], _ => []
  | call :: rest, w =>
    let course := perform (call.work e) w
    ⟨call, course⟩ :: if course.result.isSome then conduct e rest course.world else []

structure Handed (s : Setup) (host : Address) (command : String) (run : CommandRun) : Prop where
  target : ∃ entry ∈ s.registry.hosts, s.registry.entry? host = some entry ∧ host ∈ entry.addresses ∧
    run.target = ⟨host, s.registry.resolve entry, entry.bindings⟩
  route : run.route = if host ∈ s.own then .here else .there
  text : run.text = if run.target.credential.user = "root" then command else wrapPrivileged command
  limit : run.limit = s.options.commandTimeout
  streamed : run.streamed = s.options.streamOutput

/-- Commands that are run on a host in turn: an empty one is passed over, and one that does not succeed is the last. -/
inductive RunsInTurn (s : Setup) (host : Address) : List String → List CommandRun → Option (Except Error Unit) → Prop
  | done : RunsInTurn s host [] [] (some (.ok ()))
  | skipped {rest : List String} {runs : List CommandRun} {result : Option (Except Error Unit)}
      (hrest : RunsInTurn s host rest runs result) : RunsInTurn s host ("" :: rest) runs result
  | stopped {command : String} {rest : List String} {run : CommandRun} (hc : command ≠ "")
      (hrun : Handed s host command run) (hv : ∀ text, run.verdict ≠ some (.ok text)) :
      RunsInTurn s host (command :: rest) [run] (settled run.verdict)
  | passed {command : String} {rest : List String} {run : CommandRun} {text : String} {runs : List CommandRun}
      {result : Option (Except Error Unit)} (hc : command ≠ "") (hrun : Handed s host command run)
      (hv : run.verdict = some (.ok text)) (hrest : RunsInTurn s host rest runs result) :
      RunsInTurn s host (command :: rest) (run :: runs) result

def joined (s : Setup) (host : Address) (command separator text : String) : Except Error String :=
  if text = "" ∧ host ∉ s.own then .error (.emptyOutput host command) else .ok (Text.joinLines separator text)

/-- All that a call can ask for and come to. -/
inductive Comes (s : Setup) : Call → List Event → Option (Except Error (Option String)) → Prop
  | unregistered {call : Call} (h : s.registry.entry? call.host = none)
      (hping : ∀ host, call = .ping host → host ∉ s.own) :
      Comes s call [] (some (.error (.hostNotRegistered call.host)))
  | executed {host : Address} {command : String} {run : CommandRun} (h : Handed s host command run) :
      Comes s (.execute host command) [.ran run] (run.verdict.map (Except.map some))
  | executedAll {host : Address} {commands : List String} {runs : List CommandRun}
      {result : Option (Except Error Unit)} {entry : HostEntry} (he : s.registry.entry? host = some entry)
      (h : RunsInTurn s host commands runs result) :
      Comes s (.executeAll host commands) (runs.map .ran) (result.map (Except.map fun _ ↦ none))
  | joined {host : Address} {command separator : String} {run : CommandRun} (h : Handed s host command run) :
      Comes s (.executeToString host command separator) [.ran run]
        (run.verdict.map fun verdict ↦ (verdict.bind (joined s host command separator)).map some)
  | reached {host : Address} (h : host ∈ s.own) : Comes s (.ping host) [] (some (.ok none))
  | pinged {host : Address} {entry : HostEntry} (h : host ∉ s.own) (he : s.registry.entry? host = some entry)
      (answer : Option (Except Error Unit)) :
      Comes s (.ping host) [.pinged ⟨host, s.registry.resolve entry, entry.bindings⟩ answer]
        (answer.map (Except.map fun _ ↦ none))

theorem verdict_eq_ok {run : CommandRun} {text : String} :
    run.verdict = some (.ok text) ↔ run.answer = some (.ok ⟨0, text⟩) := by
  unfold CommandRun.verdict
  rcases run.answer with _ | e | ⟨status, written⟩
  · simp
  · simp
  · by_cases hz : status = 0
    · simp [hz]
    · simp [hz]

theorem verdict_of_failed {run : CommandRun} {output : Output} (h : run.answer = some (.ok output))
    (hz : output.status ≠ 0) :
    run.verdict = some (.error (.commandFailed run.target.host run.text output.status output.text)) := by
  simp only [CommandRun.verdict, h, hz, if_false]

theorem succeeded_map {α β : Type} {answer : Option (Except Error α)} {f : α → β} :
    (∃ b, answer.map (Except.map f) = some (.ok b)) ↔ ∃ a, answer = some (.ok a) := by
  rcases answer with _ | e | a
  · simp
  · simp [Except.map]
  · simp [Except.map]

theorem Handed.host_eq {s : Setup} {host : Address} {command : String} {run : CommandRun}
    (h : Handed s host command run) : run.target.host = host := by
  obtain ⟨entry, -, -, -, htarget⟩ := h.target
  rw [htarget]

theorem Handed.registered {s : Setup} {host : Address} {command : String} {run : CommandRun}
    (h : Handed s host command run) : ∃ entry ∈ s.registry.hosts, host ∈ entry.addresses := by
  obtain ⟨entry, hmem, -, hlists, -⟩ := h.target
  exact ⟨entry, hmem, hlists⟩

namespace RunsInTurn

variable {s : Setup} {host : Address} {commands : List String} {runs : List CommandRun}
  {result : Option (Except Error Unit)}

theorem handed (h : RunsInTurn s host commands runs result) {run : CommandRun} (hrun : run ∈ runs) :
    ∃ command ∈ commands, Handed s host command run := by
  induction h with
  | done => cases hrun
  | skipped hrest ih =>
    obtain ⟨command, hmem, hhanded⟩ := ih hrun
    exact ⟨command, List.mem_cons_of_mem _ hmem, hhanded⟩
  | stopped hc hown hv =>
    obtain rfl := List.mem_singleton.mp hrun
    exact ⟨_, List.mem_cons_self, hown⟩
  | passed hc hown hv hrest ih =>
    rcases List.mem_cons.mp hrun with rfl | hrun
    · exact ⟨_, List.mem_cons_self, hown⟩
    · obtain ⟨command, hmem, hhanded⟩ := ih hrun
      exact ⟨command, List.mem_cons_of_mem _ hmem, hhanded⟩

theorem succeeds_iff (h : RunsInTurn s host commands runs result) :
    result = some (.ok ()) ↔ ∀ run ∈ runs, ∃ text, run.answer = some (.ok ⟨0, text⟩) := by
  induction h with
  | done => simp
  | skipped hrest ih => exact ih
  | @stopped command rest run hc hown hv =>
    have hbad : settled run.verdict ≠ some (.ok ()) := by
      rcases hverdict : run.verdict with _ | e | text
      · simp [settled]
      · simp [settled, Except.map]
      · exact absurd hverdict (hv text)
    simp only [hbad, List.mem_singleton, forall_eq, false_iff, not_exists]
    intro text htext
    exact hv text (verdict_eq_ok.mpr htext)
  | passed hc hown hv hrest ih =>
    rw [ih, List.forall_mem_cons]
    exact ⟨fun hall ↦ ⟨⟨_, verdict_eq_ok.mp hv⟩, hall⟩, And.right⟩

theorem failed (h : RunsInTurn s host commands runs result) {run : CommandRun} (hrun : run ∈ runs) {output : Output}
    (ha : run.answer = some (.ok output)) (hz : output.status ≠ 0) :
    result = some (.error (.commandFailed host run.text output.status output.text)) := by
  induction h with
  | done => cases hrun
  | skipped hrest ih => exact ih hrun
  | stopped hc hown hv =>
    obtain rfl := List.mem_singleton.mp hrun
    rw [verdict_of_failed ha hz, hown.host_eq]
    rfl
  | passed hc hown hv hrest ih =>
    rcases List.mem_cons.mp hrun with rfl | hrun
    · rw [verdict_of_failed ha hz] at hv
      cases hv
    · exact ih hrun

end RunsInTurn

namespace Comes

variable {s : Setup} {call : Call} {events : List Event} {result : Option (Except Error (Option String))}

theorem handed (h : Comes s call events result) {run : CommandRun} (hrun : .ran run ∈ events) :
    ∃ command ∈ call.commands, Handed s call.host command run := by
  cases h with
  | unregistered | reached => cases hrun
  | pinged => simp at hrun
  | executed hown | joined hown =>
    obtain rfl : run = _ := by simpa using hrun
    exact ⟨_, List.mem_singleton_self _, hown⟩
  | executedAll he hruns => exact hruns.handed (by simpa using hrun)

theorem failed (h : Comes s call events result) {run : CommandRun} (hrun : .ran run ∈ events) {output : Output}
    (ha : run.answer = some (.ok output)) (hz : output.status ≠ 0) :
    result = some (.error (.commandFailed call.host run.text output.status output.text)) := by
  cases h with
  | unregistered | reached => cases hrun
  | pinged => simp at hrun
  | executed hown | joined hown =>
    obtain rfl : run = _ := by simpa using hrun
    rw [verdict_of_failed ha hz, hown.host_eq]
    rfl
  | executedAll he hruns =>
    rw [hruns.failed (by simpa using hrun) ha hz]
    rfl

theorem succeeds_iff (h : Comes s call events result) {first : CommandRun} (hfirst : .ran first ∈ events) :
    (∃ text, result = some (.ok text)) ↔
      ∀ run, .ran run ∈ events → ∃ text, run.answer = some (.ok ⟨0, text⟩) ∧ (call.NeedsText s.own → text ≠ "") := by
  cases h with
  | unregistered | reached => cases hfirst
  | pinged => simp at hfirst
  | executed hown =>
    simp only [succeeded_map, verdict_eq_ok, List.mem_singleton, Event.ran.injEq, forall_eq, Call.NeedsText,
      false_imp_iff, and_true]
  | @joined host command separator run hown =>
    simp only [List.mem_singleton, Event.ran.injEq, forall_eq, Call.NeedsText, ← verdict_eq_ok]
    rcases run.verdict with _ | e | text
    · simp
    · simp [Except.bind, Except.map]
    · by_cases h : text = "" ∧ host ∉ s.own
      · simp [Command.joined, h, Except.bind, Except.map]
      · simp only [Command.joined, h, Except.bind, Except.map, if_false, Option.map_some, Option.some.injEq,
          Except.ok.injEq, exists_eq', exists_eq_left', true_iff]
        exact fun hother hempty ↦ h ⟨hempty, hother⟩
  | executedAll he hruns =>
    simp only [succeeded_map, exists_const, hruns.succeeds_iff, List.mem_map, Event.ran.injEq, exists_eq_right,
      Call.NeedsText, false_imp_iff, and_true]

theorem unregistered_inv (h : Comes s call events result)
    (hnone : ∀ entry ∈ s.registry.hosts, call.host ∉ entry.addresses) :
    events = [] ∧ (result = some (.error (.hostNotRegistered call.host)) ∨
      (∃ host ∈ s.own, call = .ping host) ∧ result = some (.ok none)) := by
  have habsent := Registry.entry?_eq_none hnone
  cases h with
  | unregistered => exact ⟨rfl, .inl rfl⟩
  | reached hown => exact ⟨rfl, .inr ⟨⟨_, hown, rfl⟩, rfl⟩⟩
  | executed hown | joined hown =>
    obtain ⟨entry, hmem, hlists⟩ := hown.registered
    exact absurd hlists (hnone entry hmem)
  | executedAll he | pinged _ he => cases habsent.symm.trans he

end Comes

section Work

variable (o : Outside W) (s : Setup)

theorem handed_due {host : Address} {entry : HostEntry} (he : s.registry.entry? host = some entry) (command : String)
    (w : W) : Handed s host command (o.handed s ⟨host, s.registry.resolve entry, entry.bindings⟩ command w) where
  target := by
    obtain ⟨hmem, hlists⟩ := Registry.entry?_listed he
    exact ⟨entry, hmem, he, hlists, rfl⟩
  route := o.handed_route s _ command w
  text := Registry.prepare_resolve s.registry entry command
  limit := rfl
  streamed := rfl

theorem execute_none {host : Address} (he : s.registry.entry? host = none) (command : String) (w : W) :
    perform ((o.executor s).execute host command) w = ⟨some (.error (.hostNotRegistered host)), w, []⟩ := by
  have hr : (o.executor s).registry = s.registry := rfl
  unfold Executor.execute
  rw [perform_bind, perform_ofExcept, hr, Registry.target_of_none he]
  rfl

theorem execute_some {host : Address} {entry : HostEntry} (he : s.registry.entry? host = some entry) (command : String)
    (w : W) : ∃ v run, Handed s host command run ∧
      perform ((o.executor s).execute host command) w = ⟨run.verdict, v, [.ran run]⟩ := by
  have hr : (o.executor s).registry = s.registry := rfl
  have hrun := o.run_course s ⟨host, s.registry.resolve entry, entry.bindings⟩ command w
  refine ⟨_, _, handed_due o s he command w, Eq.trans ?_ hrun⟩
  unfold Executor.execute
  rw [perform_bind, perform_ofExcept, hr, Registry.target_of_entry he]
  rfl

theorem runEach_runsInTurn {host : Address} {entry : HostEntry} (he : s.registry.entry? host = some entry)
    (commands : List String) (w : W) :
    ∃ v runs result, RunsInTurn s host commands runs result ∧
      perform ((o.executor s).runEach ⟨host, s.registry.resolve entry, entry.bindings⟩ commands) w =
        ⟨result, v, runs.map .ran⟩ := by
  induction commands generalizing w with
  | nil => exact ⟨w, [], _, .done, o.runEach_nil s _ w⟩
  | cons command rest ih =>
    rw [o.runEach_cons]
    by_cases hc : command = ""
    · obtain ⟨v, runs, result, hrest, hcourse⟩ := ih w
      rw [if_pos hc]
      subst hc
      exact ⟨v, runs, result, .skipped hrest, hcourse⟩
    · rw [if_neg hc]
      have hrun := handed_due o s he command w
      rw [o.run_course]
      generalize o.left s ⟨host, s.registry.resolve entry, entry.bindings⟩ command w = v
      generalize o.handed s ⟨host, s.registry.resolve entry, entry.bindings⟩ command w = run at hrun
      rcases hverdict : run.verdict with _ | e | text
      · refine ⟨v, [run], _, .stopped hc hrun (by simp [hverdict]), ?_⟩
        rw [hverdict]
        rfl
      · refine ⟨v, [run], _, .stopped hc hrun (by simp [hverdict]), ?_⟩
        rw [hverdict]
        rfl
      · obtain ⟨u, runs, result, hrest, hcourse⟩ := ih v
        refine ⟨u, run :: runs, result, .passed hc hrun hverdict hrest, ?_⟩
        rw [Course.andThen_ok, hcourse]
        rfl

theorem perform_then {α : Type} (x : Task (Observed W) α) (f : α → Option String) (w : W) :
    perform (do let a ← x; return f a) w =
      ⟨(perform x w).result.map (Except.map f), (perform x w).world, (perform x w).events⟩ := by
  rw [perform_bind]
  rcases perform x w with ⟨_ | e | a, v, events⟩
  · rfl
  · rfl
  · simp only [Course.andThen_ok, perform_pure, Course.after, List.append_nil]
    rfl

theorem executeToString_some {host : Address} {entry : HostEntry} (he : s.registry.entry? host = some entry)
    (command separator : String) (w : W) :
    ∃ v run, Handed s host command run ∧ perform ((o.executor s).executeToString host command separator) w =
      ⟨run.verdict.map fun verdict ↦ verdict.bind (joined s host command separator), v, [.ran run]⟩ := by
  obtain ⟨v, run, hrun, hcourse⟩ := execute_some o s he command w
  refine ⟨v, run, hrun, ?_⟩
  unfold Executor.executeToString
  rw [perform_bind, hcourse]
  rcases run.verdict with _ | e | text
  · rfl
  · rfl
  · simp only [Course.andThen_ok]
    by_cases h : text = "" ∧ host ∉ s.own
    · rw [if_pos (Executor.lacks_text_iff.mpr h)]
      simp [joined, h, Except.bind, Course.after]
    · rw [if_neg (mt Executor.lacks_text_iff.mp h)]
      simp [joined, h, Except.bind, Course.after]

theorem executeToString_none {host : Address} (he : s.registry.entry? host = none) (command separator : String) (w : W) :
    perform ((o.executor s).executeToString host command separator) w =
      ⟨some (.error (.hostNotRegistered host)), w, []⟩ := by
  unfold Executor.executeToString
  rw [perform_bind, execute_none o s he]
  rfl

theorem ping_own {host : Address} (h : host ∈ s.own) (w : W) :
    perform ((o.executor s).ping host) w = ⟨some (.ok ()), w, []⟩ := by
  have hroute : (o.executor s).route host = .here := Executor.route_of_mem h
  unfold Executor.ping
  rw [hroute]
  rfl

theorem ping_other {host : Address} (h : host ∉ s.own) (w : W) :
    perform ((o.executor s).ping host) w =
      match s.registry.target host with
      | .error e => ⟨some (.error e), w, []⟩
      | .ok t => ⟨(o.ping t w).1, (o.ping t w).2, [.pinged t (o.ping t w).1]⟩ := by
  have hroute : (o.executor s).route host = .there := Executor.route_of_not_mem h
  have hr : (o.executor s).registry = s.registry := rfl
  unfold Executor.ping
  rw [hroute]
  simp only [perform_bind, perform_ofExcept, hr]
  cases s.registry.target host with
  | error e => rfl
  | ok t => exact perform_ask _ (o.ping t) w

theorem call_comes (call : Call) (w : W) :
    Comes s call (perform (call.work (o.executor s)) w).events (perform (call.work (o.executor s)) w).result := by
  cases call with
  | execute host command =>
    cases he : s.registry.entry? host with
    | none =>
      rw [Call.work, perform_then, execute_none o s he]
      exact .unregistered he (by simp)
    | some entry =>
      obtain ⟨v, run, hrun, hcourse⟩ := execute_some o s he command w
      rw [Call.work, perform_then, hcourse]
      exact .executed hrun
  | executeAll host commands =>
    cases he : s.registry.entry? host with
    | none =>
      rw [Call.work, perform_then, Recovery.executeAll_course, Registry.target_of_none he]
      exact .unregistered he (by simp)
    | some entry =>
      obtain ⟨v, runs, result, hruns, hcourse⟩ := runEach_runsInTurn o s he commands w
      rw [Call.work, perform_then, Recovery.executeAll_course, Registry.target_of_entry he]
      simp only [hcourse]
      exact .executedAll he hruns
  | executeToString host command separator =>
    cases he : s.registry.entry? host with
    | none =>
      rw [Call.work, perform_then, executeToString_none o s he]
      exact .unregistered he (by simp)
    | some entry =>
      obtain ⟨v, run, hrun, hcourse⟩ := executeToString_some o s he command separator w
      rw [Call.work, perform_then, hcourse]
      simp only [Option.map_map]
      exact .joined hrun
  | ping host =>
    by_cases hown : host ∈ s.own
    · rw [Call.work, perform_then, ping_own o s hown]
      exact .reached hown
    · rw [Call.work, perform_then, ping_other o s hown]
      cases he : s.registry.entry? host with
      | none =>
        rw [Registry.target_of_none he]
        exact .unregistered he fun other h ↦ by cases h; exact hown
      | some entry =>
        rw [Registry.target_of_entry he]
        exact .pinged hown he _

theorem conduct_made (calls : List Call) (w : W) {made : Made W} (h : made ∈ conduct (o.executor s) calls w) :
    ∃ v, made.course = perform (made.call.work (o.executor s)) v := by
  induction calls generalizing w with
  | nil => cases h
  | cons call rest ih =>
    rw [conduct] at h
    rcases List.mem_cons.mp h with rfl | h
    · exact ⟨w, rfl⟩
    · by_cases hended : (perform (call.work (o.executor s)) w).result.isSome
      · rw [if_pos hended] at h
        exact ih _ h
      · rw [if_neg hended] at h
        cases h

theorem conduct_calls (calls : List Call) (w : W) :
    (conduct (o.executor s) calls w).map Made.call <+: calls ∧
      ((∀ made ∈ conduct (o.executor s) calls w, made.course.result ≠ none) →
        (conduct (o.executor s) calls w).map Made.call = calls) := by
  induction calls generalizing w with
  | nil => exact ⟨List.prefix_rfl, fun _ ↦ rfl⟩
  | cons call rest ih =>
    rw [conduct]
    by_cases hended : (perform (call.work (o.executor s)) w).result.isSome
    · obtain ⟨hmade, hall⟩ := ih (perform (call.work (o.executor s)) w).world
      simp only [hended, if_true, List.map_cons, List.prefix_cons_inj, List.forall_mem_cons, List.cons.injEq, true_and]
      exact ⟨hmade, fun h ↦ hall h.2⟩
    · simp only [hended, List.map_cons, List.forall_mem_cons]
      refine ⟨⟨rest, rfl⟩, fun h ↦ ?_⟩
      exact absurd (Option.isSome_iff_ne_none.mpr h.1) hended

end Work

/-- Calls of an executor in turn, each of which comes to what is listed for it, whatever came before and whatever is
answered. A command that ends with a status other than zero fails its call, with all that it wrote; the call succeeds
exactly if all its commands end with zero, and have written something where that is needed. On behalf of a host that no
entry lists, nothing is asked. -/
theorem calls_conducted (o : Outside W) (s : Setup) (calls : List Call) (w : W) :
    (∀ made ∈ conduct (o.executor s) calls w,
      Comes s made.call made.course.events made.course.result ∧
      (∀ run, .ran run ∈ made.course.events →
        (∃ command ∈ made.call.commands, Handed s made.call.host command run) ∧
        (∀ output, run.answer = some (.ok output) → output.status ≠ 0 →
          made.course.result =
            some (.error (.commandFailed made.call.host run.text output.status output.text))) ∧
        ((∃ text, made.course.result = some (.ok text)) ↔
          ∀ run, .ran run ∈ made.course.events →
            ∃ text, run.answer = some (.ok ⟨0, text⟩) ∧ (made.call.NeedsText s.own → text ≠ ""))) ∧
      ((∀ entry ∈ s.registry.hosts, made.call.host ∉ entry.addresses) →
        made.course.events = [] ∧ (made.course.result = some (.error (.hostNotRegistered made.call.host)) ∨
          (∃ host ∈ s.own, made.call = .ping host) ∧ made.course.result = some (.ok none)))) ∧
    (conduct (o.executor s) calls w).map Made.call <+: calls ∧
    ((∀ made ∈ conduct (o.executor s) calls w, made.course.result ≠ none) →
      (conduct (o.executor s) calls w).map Made.call = calls) := by
  refine ⟨?_, conduct_calls o s calls w⟩
  intro made hmade
  obtain ⟨v, hcourse⟩ := conduct_made o s calls w hmade
  have hcomes := call_comes o s made.call v
  rw [← hcourse] at hcomes
  refine ⟨hcomes, ?_, hcomes.unregistered_inv⟩
  intro run hrun
  exact ⟨hcomes.handed hrun, fun output ha hz ↦ hcomes.failed hrun ha hz, hcomes.succeeds_iff hrun⟩

/-- A command on a host that no entry lists, and one on a listed host that ends with another status than zero. -/
theorem calls_conducted_failing :
    ∃ unlisted listed run,
      conduct (({ Outside.agreeing [] with command := fun _ _ _ _ _ w ↦ ((["no"], some (.ok ⟨1, "no\n"⟩)), w) }
          : Outside Unit).executor (.oneHost (.v4 ⟨10, 0, 0, 9⟩) "ops"))
          [.execute (.v4 ⟨10, 0, 0, 8⟩) "false", .execute (.v4 ⟨10, 0, 0, 9⟩) "false"] () =
        [⟨.execute (.v4 ⟨10, 0, 0, 8⟩) "false", unlisted⟩,
          ⟨.execute (.v4 ⟨10, 0, 0, 9⟩) "false", listed, (), [.ran run]⟩] ∧
      unlisted.events = [] ∧
      (∃ command ∈ ["false"], Handed (.oneHost (.v4 ⟨10, 0, 0, 9⟩) "ops") (.v4 ⟨10, 0, 0, 9⟩) command run) ∧
      listed = some (.error (.commandFailed (.v4 ⟨10, 0, 0, 9⟩) run.text 1 "no\n")) := by
  let o : Outside Unit :=
    { Outside.agreeing [] with command := fun _ _ _ _ _ w ↦ ((["no"], some (.ok ⟨1, "no\n"⟩)), w) }
  let s := Setup.oneHost (.v4 ⟨10, 0, 0, 9⟩) "ops"
  let run := o.handed s ⟨.v4 ⟨10, 0, 0, 9⟩, s.registry.resolve ⟨[.v4 ⟨10, 0, 0, 9⟩], [], .empty, []⟩, []⟩ "false" ()
  have hconduct : conduct (o.executor s)
      [.execute (.v4 ⟨10, 0, 0, 8⟩) "false", .execute (.v4 ⟨10, 0, 0, 9⟩) "false"] () =
      [⟨.execute (.v4 ⟨10, 0, 0, 8⟩) "false", some (.error (.hostNotRegistered (.v4 ⟨10, 0, 0, 8⟩))), (), []⟩,
        ⟨.execute (.v4 ⟨10, 0, 0, 9⟩) "false", run.verdict.map (Except.map some), (), [.ran run]⟩] := rfl
  have hmade := (calls_conducted o s
    [.execute (.v4 ⟨10, 0, 0, 8⟩) "false", .execute (.v4 ⟨10, 0, 0, 9⟩) "false"] ()).1
  rw [hconduct] at hmade
  have hunlisted : ∀ entry ∈ s.registry.hosts, Address.v4 ⟨10, 0, 0, 8⟩ ∉ entry.addresses := by decide
  obtain ⟨-, -, hnothing⟩ := hmade _ List.mem_cons_self
  obtain ⟨-, hran, -⟩ := hmade _ (List.mem_cons_of_mem _ (List.mem_singleton_self _))
  obtain ⟨hhanded, hfailed, -⟩ := hran run (List.mem_singleton_self _)
  exact ⟨_, _, run, hconduct, (hnothing hunlisted).1, hhanded, hfailed ⟨1, "no\n"⟩ rfl (by decide)⟩

end SelfHealing.Command
