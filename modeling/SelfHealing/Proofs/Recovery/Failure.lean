import SelfHealing.Proofs.Plainness
import SelfHealing.Proofs.Recovery.Placement

/-!
How a recovery pass fails. Main statement: the failure names the first rule that fails and the anomaly at which it does,
and right below these two stands the answer, or the refusal, that everything goes back to.
-/

namespace SelfHealing

open Command Kubernetes Net Observation Recovery Relation Time

def Observation.Event.IsPlain : Event → Prop
  | .listed _ answer => ∀ r ∈ answer, IsPlainly r
  | .fetched _ _ answer => ∀ r ∈ answer, IsPlainly r
  | .replaced _ _ _ answer => ∀ r ∈ answer, IsPlainly r
  | .deleted _ _ answer => ∀ r ∈ answer, IsPlainly r
  | .watched _ _ answer => ∀ r ∈ answer, IsPlainly r
  | .ran run => ∀ r ∈ run.answer, IsPlainly r
  | .pinged _ answer => ∀ r ∈ answer, IsPlainly r

theorem settled_plainly {α : Type} {answer : Option (Except Error α)} (h : ∀ r ∈ answer, IsPlainly r) :
    ∀ r ∈ settled answer, IsPlainly r := by
  intro r hr
  rcases answer with _ | e | a
  · cases hr
  · cases hr
    exact isPlainly_error (h (.error e) rfl e rfl)
  · cases hr
    exact isPlainly_ok ()

theorem verdict_plainly {run : CommandRun} (h : ∀ r ∈ run.answer, IsPlainly r) : ∀ r ∈ run.verdict, IsPlainly r := by
  intro r hr
  unfold CommandRun.verdict at hr
  rcases hanswer : run.answer with _ | e | output
  · simp [hanswer] at hr
  · rw [hanswer] at hr h
    cases hr
    exact isPlainly_error (h (.error e) rfl e rfl)
  · rw [hanswer] at hr
    simp only at hr
    split at hr
    · cases hr
      exact isPlainly_ok output.text
    · cases hr
      exact isPlainly_error rfl

theorem Observation.Course.explain_error_inv {W α : Type} {f : Error → Error} {c : Course W (Except Error α)} {e : Error}
    (h : (c.explain f).result = some (.error e)) : ∃ source, c.result = some (.error source) ∧ e = f source := by
  rcases c with ⟨_ | source | a, w, events⟩
  · cases h
  · cases h
    exact ⟨source, rfl, rfl⟩
  · cases h

theorem Anomaly.failure_wraps (a : Anomaly) (action : String) (cause : Error) :
    (a.failure action cause).Wraps cause := by
  cases a with
  | pod p =>
    unfold Anomaly.failure
    split
    · rfl
    · split <;> rfl
  | service s => rfl

namespace Recovery

variable {s : Setup}

theorem HostRun.plainly {pod space command : String} {events : List Event} {result : Option (Except Error Unit)}
    (h : HostRun s pod space command events result) (hplain : ∀ event ∈ events, event.IsPlain) :
    ∀ r ∈ result, IsPlainly r := by
  cases h with
  | unlisted answer h =>
    have hlist : Event.IsPlain (.listed space answer) := hplain _ (by simp)
    exact settled_plainly hlist
  | unresolved pods h =>
    intro r hr
    cases hr
    exact isPlainly_error rfl
  | unregistered pods host h he =>
    intro r hr
    cases hr
    exact isPlainly_error rfl
  | idle pods host entry h he hc =>
    intro r hr
    cases hr
    exact isPlainly_ok ()
  | ran pods host entry run h he hc hroute htarget htext hlimit hstreamed =>
    have hrun : Event.IsPlain (.ran run) := hplain _ (by simp)
    exact settled_plainly (verdict_plainly hrun)

theorem Remedy.plainly {action : String} {a : Anomaly} {events : List Event} {result : Option (Except Error Unit)}
    (h : Remedy s action a events result) (hplain : ∀ event ∈ events, event.IsPlain) : ∀ r ∈ result, IsPlainly r := by
  cases h with
  | undeleted p answer ha h =>
    have hdelete : Event.IsPlain (.deleted p.space p.name result) := hplain _ (by simp)
    exact hdelete
  | unwatched p answer ha h =>
    have hwatch : Event.IsPlain (.watched p.space p.name answer) := hplain _ (by simp)
    exact settled_plainly hwatch
  | watched p script start ha =>
    intro r hr
    obtain ⟨last, -, rfl⟩ := Option.map_eq_some_iff.mp hr
    exact isPlainly_ok ()
  | unfetched p answer ha h =>
    have hget : Event.IsPlain (.fetched p.space p.name answer) := hplain _ (by simp)
    exact settled_plainly hget
  | submitted p pod date answer ha =>
    have hput : Event.IsPlain (.replaced p.space p.name (markRestarted date pod) answer) := hplain _ (by simp)
    exact settled_plainly hput
  | onHost a events result ha h => exact h.plainly hplain

variable {W : Type}

/-- A failure of a job that recovers an anomaly names the anomaly, and wraps an error that wraps no other. -/
theorem recover_failed (o : Outside W) {action : String} {a : Anomaly} {w : W} {e : Error}
    (h : (perform (recover (o.context s) action a) w).result = some (.error e))
    (hplain : ∀ event ∈ (perform (recover (o.context s) action a) w).events, event.IsPlain) :
    ∃ cause, cause.IsPlain ∧ e = a.failure action cause := by
  obtain ⟨result, hremedy, hresult⟩ := recover_remedy o s action a w
  rw [h] at hresult
  rcases result with _ | cause | _
  · cases hresult
  · cases hresult
    exact ⟨cause, hremedy.plainly hplain _ rfl cause rfl, rfl⟩
  · cases hresult

theorem first_failure {ι : Type} (step : ι → W → Course W (Except Error Unit))
    (go : List ι → W → Course W (Except Error Unit)) (hnil : ∀ w, go [] w = ⟨some (.ok ()), w, []⟩)
    (hcons : ∀ item rest w, go (item :: rest) w = (step item w).andThen fun _ v ↦ go rest v)
    {items : List ι} {w : W} {e : Error} (h : (go items w).result = some (.error e)) :
    ∃ front item back v earlier, items = front ++ item :: back ∧ go front w = ⟨some (.ok ()), v, earlier⟩ ∧
      (step item v).result = some (.error e) ∧ (go items w).events = earlier ++ (step item v).events := by
  induction items generalizing w with
  | nil =>
    rw [hnil] at h
    cases h
  | cons item rest ih =>
    rw [hcons] at h ⊢
    rcases hstep : step item w with ⟨_ | cause | _, v, es⟩
    · rw [hstep] at h
      cases h
    · rw [hstep] at h
      exact ⟨[], item, rest, w, [], rfl, hnil w, by rw [hstep]; exact h, by rw [hstep]; rfl⟩
    · rw [hstep, Course.andThen_ok] at h
      obtain ⟨front, failing, back, u, earlier, hitems, hfront, hfailed, hevents⟩ := ih h
      refine ⟨item :: front, failing, back, u, es ++ earlier, by rw [hitems, List.cons_append], ?_, hfailed, ?_⟩
      · rw [hcons, hstep, Course.andThen_ok, hfront]
        rfl
      · rw [Course.andThen_ok, Course.after_events, hevents, List.append_assoc]

/-- A failure of a pass, and the error that it goes back to. All rules before have succeeded, and of the failing rule all
anomalies before. -/
inductive Fails (ctx : Context (Observed W)) (results : List RuleResult) (w : W) : Error → Error → Prop
  | refused {before after : List RuleResult} {r : RuleResult} {recovery : Recovery} {v : W} {earlier : List Event}
      (hresults : results = before ++ r :: after)
      (hbefore : perform (run ctx before) w = ⟨some (.ok ()), v, earlier⟩)
      (hrecovery : r.rule.enabledRecovery? = some recovery) (hsets : r.result.labelSets? = none) :
      Fails ctx results w (.ruleFailed r.rule.name (.unsupportedResult r.result.kind))
        (.unsupportedResult r.result.kind)
  | unrecovered {before after : List RuleResult} {r : RuleResult} {recovery : Recovery} {v u : W}
      {earlier own : List Event} {front back : List Labels} {labels : Labels} {a : Anomaly} {cause : Error}
      (hresults : results = before ++ r :: after)
      (hbefore : perform (run ctx before) w = ⟨some (.ok ()), v, earlier⟩)
      (hrecovery : r.rule.enabledRecovery? = some recovery)
      (hsets : r.result.labelSets? = some (front ++ labels :: back))
      (hfront : perform (recoverAll ctx recovery.action (front.map (Anomaly.ofLabels recovery.workload))) v =
        ⟨some (.ok ()), u, own⟩)
      (ha : a = Anomaly.ofLabels recovery.workload labels)
      (hfailed : (perform (recover ctx recovery.action a) u).result =
        some (.error (a.failure recovery.action cause))) :
      Fails ctx results w (.ruleFailed r.rule.name (a.failure recovery.action cause)) cause

theorem Fails.wraps {ctx : Context (Observed W)} {results : List RuleResult} {w : W} {e cause : Error}
    (h : Fails ctx results w e cause) : ReflTransGen Error.Wraps e cause := by
  cases h with
  | refused => exact .single rfl
  | unrecovered => exact .head rfl (.single (Anomaly.failure_wraps _ _ _))

theorem run_failed (o : Outside W) (s : Setup) {results : List RuleResult} {w : W} {e : Error}
    (h : (perform (run (o.context s) results) w).result = some (.error e))
    (hplain : ∀ event ∈ (perform (run (o.context s) results) w).events, event.IsPlain) :
    ∃ cause, Fails (o.context s) results w e cause ∧ cause.IsPlain := by
  obtain ⟨before, r, after, v, earlier, hresults, hbefore, hrule, hevents⟩ :=
    first_failure (fun r ↦ perform (recoverRule (o.context s) r)) (fun rest ↦ perform (run (o.context s) rest))
      (fun _ ↦ rfl) (fun _ _ v ↦ perform_bind _ _ v) h
  unfold recoverRule at hrule hevents
  cases hrecovery : r.rule.enabledRecovery? with
  | none =>
    rw [hrecovery] at hrule
    cases hrule
  | some recovery =>
    simp only [hrecovery, perform_explain, perform_bind, perform_ofExcept, classify] at hrule hevents
    cases hsets : r.result.labelSets? with
    | none =>
      rw [hsets] at hrule
      cases hrule
      exact ⟨_, .refused hresults hbefore hrecovery hsets, rfl⟩
    | some sets =>
      rw [hsets] at hrule hevents
      simp only [Course.andThen_ok, Course.after_nil] at hrule hevents
      obtain ⟨source, hsource, rfl⟩ := Course.explain_error_inv hrule
      obtain ⟨front, a, back, u, own, hsplit, hfront, hfailed, hown⟩ :=
        first_failure (fun a ↦ perform (recover (o.context s) recovery.action a))
          (fun rest ↦ perform (recoverAll (o.context s) recovery.action rest))
          (fun _ ↦ rfl) (fun _ _ u ↦ perform_bind _ _ u) hsource
      obtain ⟨first, rest, rfl, rfl, hrest⟩ := List.map_eq_append_iff.mp hsplit
      obtain ⟨labels, others, rfl, rfl, -⟩ := List.map_eq_cons_iff.mp hrest
      have hasked : ∀ event ∈ (perform (recover (o.context s) recovery.action
          (Anomaly.ofLabels recovery.workload labels)) u).events, event.IsPlain := by
        intro event hevent
        apply hplain event
        rw [hevents]
        apply List.mem_append_right earlier
        change event ∈ (perform (recoverAll (o.context s) recovery.action _) v).events
        rw [hown]
        exact List.mem_append_right own hevent
      obtain ⟨cause, hcause, rfl⟩ := recover_failed o hfailed hasked
      exact ⟨cause, .unrecovered hresults hbefore hrecovery hsets hfront rfl hfailed, hcause⟩

/-- Every failure of a pass names its rule, and below it the kind of the result or the anomaly with what was done to it.
The error right below that is the root cause, if no answer brings an error that wraps another; a client of a cluster, the
watch that it opens, a shell and sessions bring none. The root cause of any error is what its wrappings lead to. -/
theorem failure_explained :
    (∀ {W : Type} (o : Outside W) (s : Setup) (results : List RuleResult) (w : W) (e : Error),
      (perform (run (o.context s) results) w).result = some (.error e) →
      (∀ event ∈ (perform (run (o.context s) results) w).events, event.IsPlain) →
      ∃ cause, Fails (o.context s) results w e cause ∧ cause.IsPlain ∧ e.rootCause = cause) ∧
    (∀ {W : Type} (c : Client (OptionT (StateM W))) (space name : String) (pod : Pod) (answers : List Answer),
      Yields (c.listPods space) IsPlainly ∧ Yields (c.getPod space name) IsPlainly ∧
      Yields (c.replacePod space name pod) IsPlainly ∧ Yields (c.deletePod space name) IsPlainly ∧
      ∀ opening, Watch.open? (c.course space name answers).script = some opening → IsPlainly opening.result) ∧
    (∀ {W : Type} (launch : Launch) (n : Ssh.Network (StateM W)) (connectTimeout : Duration) (t : Target)
      (command : String) (limit : Option Duration) (sink : Option (Sink (OptionT (StateM W)))),
      Yields (localRunner launch t command limit sink) IsPlainly ∧
      Yields (n.runner connectTimeout t command limit sink) IsPlainly ∧ Yields (n.pinger connectTimeout t) IsPlainly) ∧
    ∀ e : Error, e.rootCause.rootCause = e.rootCause ∧
      ∀ cause, e.rootCause = cause ↔ ReflTransGen Error.Wraps e cause ∧ cause.IsPlain := by
  refine ⟨?pass, ?client, ?runners, ?root⟩
  case pass =>
    intro W o s results w e h hplain
    obtain ⟨cause, hfails, hcause⟩ := run_failed o s h hplain
    exact ⟨cause, hfails, hcause, Error.rootCause_eq_iff.mpr ⟨hfails.wraps, hcause⟩⟩
  case client =>
    intro W c space name pod answers
    refine ⟨c.listPods_plainly space, c.getPod_plainly space name, c.replacePod_plainly space name pod,
      c.deletePod_plainly space name, ?_⟩
    intro opening hopening
    exact Watch.openFrom?_plainly (Watcher.course_plainly _ answers) hopening
  case runners =>
    intro W launch n connectTimeout t command limit sink
    exact ⟨localRunner_plainly launch t command limit sink, n.runner_plainly connectTimeout t command limit sink,
      n.pinger_plainly connectTimeout t⟩
  case root =>
    intro e
    exact ⟨e.rootCause_rootCause, fun cause ↦ Error.rootCause_eq_iff⟩

/-- A pass that deletes a pod, and then cannot find the host of another one. -/
theorem failure_explained_unresolved :
    (perform (run ((Outside.agreeing []).context (.oneHost default "root"))
        [.under ⟨.pod, "delete", true⟩ (sampleOf [("namespace", "prod"), ("pod", "api-0")]),
          .under ⟨.pod, "reboot", true⟩ (sampleOf [("namespace", "prod"), ("pod", "api-1")])]) ()).result =
      some (.error (.ruleFailed "rule" (.shellFailed "prod" "api-1" "reboot" (.hostUnresolved "api-1" "prod")))) ∧
    ∃ cause, Fails ((Outside.agreeing []).context (.oneHost default "root"))
        [.under ⟨.pod, "delete", true⟩ (sampleOf [("namespace", "prod"), ("pod", "api-0")]),
          .under ⟨.pod, "reboot", true⟩ (sampleOf [("namespace", "prod"), ("pod", "api-1")])] ()
        (.ruleFailed "rule" (.shellFailed "prod" "api-1" "reboot" (.hostUnresolved "api-1" "prod"))) cause ∧
      cause.IsPlain ∧ .hostUnresolved "api-1" "prod" = cause := by
  have hpass : perform (run ((Outside.agreeing []).context (.oneHost default "root"))
      [.under ⟨.pod, "delete", true⟩ (sampleOf [("namespace", "prod"), ("pod", "api-0")]),
        .under ⟨.pod, "reboot", true⟩ (sampleOf [("namespace", "prod"), ("pod", "api-1")])]) () =
      ⟨some (.error (.ruleFailed "rule" (.shellFailed "prod" "api-1" "reboot" (.hostUnresolved "api-1" "prod")))), (),
        [.deleted "prod" "api-0" (some (.ok ())), .watched "prod" "api-0" (some (.ok ⟨[], .closed⟩)),
          .listed "prod" (some (.ok []))]⟩ := rfl
  have hresult := congrArg Course.result hpass
  refine ⟨hresult, failure_explained.1 _ _ _ _ _ hresult ?_⟩
  rw [hpass]
  simp [Event.IsPlain, isPlainly_ok]

end Recovery

end SelfHealing
