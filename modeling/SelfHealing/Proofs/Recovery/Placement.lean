import SelfHealing.Proofs.Recovery.Order
import SelfHealing.Proofs.Recovery.Remedy
import SelfHealing.Proofs.Registry.Entry

/-!
Where commands go. Main statement: in every pass a command is handed over right after the listing that places the pod
of its anomaly on a registered host, in the text that the action means there; where no listing does, nothing is run.
-/

namespace SelfHealing

open Command Net Observation Text

theorem Credential.isRoot_withUser (c : Credential) : c.withUser.isRoot = decide (c.withUser.user = "root") := by
  have h : Credential.orElse (Credential.orElse c.user "root") "root" = Credential.orElse c.user "root" := by
    unfold Credential.orElse
    split
    · rfl
    · simp_all
  change decide (Credential.orElse (Credential.orElse c.user "root") "root" = "root") =
    decide (Credential.orElse c.user "root" = "root")
  rw [h]

theorem Registry.prepare_resolve (r : Registry) (entry : HostEntry) (command : String) :
    (r.resolve entry).prepare command =
      if (r.resolve entry).user = "root" then command else wrapPrivileged command := by
  unfold Credential.prepare Registry.resolve
  simp only [Credential.isRoot_withUser, decide_eq_true_eq]

theorem hostIn_eq_some {pods : List PodSummary} {name : String} {host : Address}
    (h : hostIn pods name = some host) :
    ∃ p, pods.find? (·.name = name) = some p ∧ Address.parse? (trim p.hostText) = some host :=
  Option.bind_eq_some_iff.mp h

namespace Recovery

variable {W : Type}

theorem mem_agenda {results : List RuleResult} {rule action : String} {a : Anomaly}
    (h : Job.recover rule action a ∈ agenda results) :
    ∃ r ∈ results, ∃ recovery sets, r.rule.enabledRecovery? = some recovery ∧ r.result.labelSets? = some sets ∧
      recovery.action = action ∧ ∃ labels ∈ sets, Anomaly.ofLabels recovery.workload labels = a := by
  obtain ⟨r, hr, hjob⟩ := List.mem_flatMap.mp h
  unfold RuleResult.jobs at hjob
  cases hrec : r.rule.enabledRecovery? with
  | none => simp [hrec] at hjob
  | some recovery =>
    cases hsets : r.result.labelSets? with
    | none => simp [hrec, hsets] at hjob
    | some sets =>
      simp only [hrec, hsets, List.mem_map, Job.recover.injEq] at hjob
      obtain ⟨labels, hl, -, haction, ha⟩ := hjob
      exact ⟨r, hr, recovery, sets, hrec, hsets, haction, labels, hl, ha⟩

/-- Whatever a pass asks is asked by a job of its agenda, and what comes just before is asked by the same job. -/
theorem pursue_split (ctx : Context (Observed W)) (jobs : List Job) (w : W) {before after : List Event} {e : Event}
    (h : (pursue ctx w jobs).events = before ++ e :: after) :
    ∃ job ∈ jobs, ∃ v earlier front back,
      (job.course ctx v).events = front ++ e :: back ∧ before = earlier ++ front := by
  induction jobs generalizing w before with
  | nil => simp [pursue] at h
  | cons job rest ih =>
    have hhere {back : List Event} (hb : (job.course ctx w).events = before ++ e :: back) :
        ∃ j ∈ job :: rest, ∃ v earlier front back,
          (j.course ctx v).events = front ++ e :: back ∧ before = earlier ++ front :=
      ⟨job, List.mem_cons_self, w, [], before, back, hb, rfl⟩
    have hthere {later : List Event} (hl : before = (job.course ctx w).events ++ later)
        (hr : (pursue ctx (job.course ctx w).world rest).events = later ++ e :: after) :
        ∃ j ∈ job :: rest, ∃ v earlier front back,
          (j.course ctx v).events = front ++ e :: back ∧ before = earlier ++ front := by
      obtain ⟨j, hj, v, earlier, front, back, hc, hbefore⟩ := ih _ hr
      exact ⟨j, List.mem_cons_of_mem _ hj, v, (job.course ctx w).events ++ earlier, front, back, hc,
        by rw [hl, hbefore, List.append_assoc]⟩
    simp only [pursue] at h
    -- The event belongs to the first job, or the first job succeeded and the event comes later.
    rcases hcourse : job.course ctx w with ⟨_ | e' | _, v, es⟩
    · exact hhere (by simpa [hcourse] using h)
    · exact hhere (by simpa [hcourse] using h)
    · simp only [hcourse, Course.explain_ok, Course.andThen_ok, Course.after_events] at h
      rw [hcourse] at hhere hthere
      rcases List.append_eq_append_iff.mp h with ⟨later, hl, hr⟩ | ⟨c, hc, hr⟩
      · exact hthere hl hr
      · cases c with
        | nil =>
          have hl : before = es ++ [] := by simpa using hc.symm
          exact hthere hl hr.symm
        | cons x c =>
          obtain ⟨rfl, -⟩ := List.cons.inj hr
          exact hhere hc

theorem Remedy.ran_inv {s : Setup} {action : String} {a : Anomaly} {events : List Event}
    {result : Option (Except Error Unit)} (h : Remedy s action a events result) {front back : List Event}
    {given : CommandRun} (he : events = front ++ .ran given :: back) :
    a.isLocated action ∧ ∃ pods, front = [.listed a.searchSpace (some (.ok pods))] ∧
      HostRun s a.podName a.searchSpace (a.command action)
        [.listed a.searchSpace (some (.ok pods)), .ran given] result := by
  have hmem : Event.ran given ∈ events := by simp [he]
  cases h with
  | undeleted | unwatched | watched | unfetched | submitted => simp at hmem
  | onHost a events result ha h =>
    refine ⟨ha, ?_⟩
    cases h with
    | unlisted | unresolved | unregistered | idle => simp at hmem
    | ran pods host entry own h hentry hc hroute htarget htext hlimit hstreamed =>
      have hown : given = own := by simpa using hmem
      subst hown
      refine ⟨pods, ?_, .ran pods host entry given h hentry hc hroute htarget htext hlimit hstreamed⟩
      rcases front with _ | ⟨x, _ | ⟨y, rest⟩⟩
      · simp at he
      · exact congrArg (fun l ↦ l.take 1) he.symm
      · simp at he

theorem Remedy.listed_inv {s : Setup} {action : String} {a : Anomaly} {events : List Event}
    {result : Option (Except Error Unit)} (h : Remedy s action a events result) (ha : a.isLocated action) :
    HostRun s a.podName a.searchSpace (a.command action) events result := by
  cases h with
  | undeleted p answer hd | unwatched p answer hd | watched p script start hd =>
    simp [Anomaly.isLocated, hd] at ha
  | unfetched p answer hr | submitted p pod date answer hr => simp [Anomaly.isLocated, hr] at ha
  | onHost a events result ha h => exact h

section Located

variable (o : Outside W) (s : Setup) {action : String} {a : Anomaly}

theorem recover_listed (ha : a.isLocated action) (w : W) :
    ∃ later, (perform (recover (o.context s) action a) w).events =
      .listed a.searchSpace (o.listPods a.searchSpace w).1 :: later := by
  rw [recover_located o s ha, runOnHostOf_course]
  rcases (o.listPods a.searchSpace w).1 with _ | e | pods
  · exact ⟨[], rfl⟩
  · exact ⟨[], rfl⟩
  · simp only
    cases hostIn pods a.podName with
    | none => exact ⟨[], rfl⟩
    | some host => exact ⟨_, rfl⟩

variable {pods : List PodSummary} {w : W}

theorem recover_unresolved (ha : a.isLocated action) (hlist : (o.listPods a.searchSpace w).1 = some (.ok pods))
    (h : hostIn pods a.podName = none) :
    (perform (recover (o.context s) action a) w).events = [.listed a.searchSpace (some (.ok pods))] ∧
      (perform (recover (o.context s) action a) w).result =
        some (.error (a.failure action (.hostUnresolved a.podName a.searchSpace))) := by
  rw [recover_located o s ha, runOnHostOf_course]
  simp only [hlist, h]
  exact ⟨rfl, rfl⟩

theorem recover_unregistered (ha : a.isLocated action) (hlist : (o.listPods a.searchSpace w).1 = some (.ok pods))
    {host : Address} (h : hostIn pods a.podName = some host) (hhosts : ∀ entry ∈ s.registry.hosts, host ∉ entry.addresses) :
    (perform (recover (o.context s) action a) w).events = [.listed a.searchSpace (some (.ok pods))] ∧
      (perform (recover (o.context s) action a) w).result =
        some (.error (a.failure action (.hostNotRegistered host))) := by
  rw [recover_located o s ha, runOnHostOf_course]
  simp only [hlist, h, executeAll_course, Registry.target_of_none (Registry.entry?_eq_none hhosts)]
  exact ⟨rfl, rfl⟩

end Located

/-- A command is handed over for an anomaly of an enabled rule, right after the first pod of its name in a listing was
placed on a registered host, and in the text that the action means there. An anomaly whose host is looked up begins with
the listing that the cluster answers; if that does not show where its pod is, or shows it on a host that is not
registered, the recovery fails and runs nothing. -/
theorem command_placed (o : Outside W) (s : Setup) (results : List RuleResult) (w : W) :
    (∀ before given after, (perform (run (o.context s) results) w).events = before ++ .ran given :: after →
      ∃ r ∈ results, ∃ recovery sets, r.rule.enabledRecovery? = some recovery ∧
        r.result.labelSets? = some sets ∧ ∃ labels ∈ sets, ∃ a, Anomaly.ofLabels recovery.workload labels = a ∧
        a.isLocated recovery.action ∧
        (∃ earlier pods p, before = earlier ++ [.listed a.searchSpace (some (.ok pods))] ∧
          pods.find? (·.name = a.podName) = some p ∧
          Address.parse? (trim p.hostText) = some given.target.host) ∧
        (∃ entry ∈ s.registry.hosts, given.target.host ∈ entry.addresses) ∧
        s.registry.credentialFor given.target.host = .ok given.target.credential ∧
        given.route = (if given.target.host ∈ s.own then .here else .there) ∧
        given.text = if given.target.credential.user = "root" then a.command recovery.action
          else wrapPrivileged (a.command recovery.action)) ∧
      ∀ action a v, a.isLocated action →
        (∃ later, (perform (recover (o.context s) action a) v).events =
          .listed a.searchSpace (o.listPods a.searchSpace v).1 :: later) ∧
        ∀ pods, (o.listPods a.searchSpace v).1 = some (.ok pods) →
          (hostIn pods a.podName = none →
            (perform (recover (o.context s) action a) v).events = [.listed a.searchSpace (some (.ok pods))] ∧
            (perform (recover (o.context s) action a) v).result =
              some (.error (a.failure action (.hostUnresolved a.podName a.searchSpace)))) ∧
          ∀ host, hostIn pods a.podName = some host → (∀ entry ∈ s.registry.hosts, host ∉ entry.addresses) →
            (perform (recover (o.context s) action a) v).events = [.listed a.searchSpace (some (.ok pods))] ∧
            (perform (recover (o.context s) action a) v).result =
              some (.error (a.failure action (.hostNotRegistered host))) := by
  refine ⟨?_, fun action a v ha ↦ ⟨recover_listed o s ha v, fun pods hlist ↦
    ⟨recover_unresolved o s ha hlist, fun host ↦ recover_unregistered o s ha hlist⟩⟩⟩
  intro before given after h
  rw [run_course] at h
  obtain ⟨job, hjob, v, earlier, front, back, hevents, hbefore⟩ := pursue_split _ _ _ h
  cases job with
  | refuse rule kind => simp [Job.course] at hevents
  | recover rule action a =>
    obtain ⟨r, hr, recovery, sets, hrec, hsets, rfl, labels, hlabels, ha⟩ := mem_agenda hjob
    obtain ⟨result, hremedy, -⟩ := recover_remedy o s recovery.action a v
    obtain ⟨hlocated, pods, rfl, hrun⟩ := hremedy.ran_inv hevents
    cases hrun with
    | ran pods host entry given h hentry hc hroute htarget htext =>
      obtain ⟨p, hp, hparse⟩ := hostIn_eq_some h
      obtain ⟨hmem, hlists⟩ := Registry.entry?_listed hentry
      refine ⟨r, hr, recovery, sets, hrec, hsets, labels, hlabels, a, ha, hlocated,
        ⟨earlier, pods, p, hbefore, hp, ?_⟩, ⟨entry, hmem, ?_⟩, ?_, ?_, ?_⟩
      · rw [htarget]; exact hparse
      · rw [htarget]; exact hlists
      · rw [htarget]; simp only [Registry.credentialFor, hentry]
      · rw [htarget]; exact hroute
      · rw [htarget, htext, Registry.prepare_resolve]

def onePod (name hostText : String) : List PodSummary := [⟨name, "monitoring", "node-a", hostText⟩]

/-- A service is restarted on a host where another user than the superuser logs in. Nothing is run for a service on a
host that no entry lists, nor for a pod that the listing shows without an address. -/
theorem command_placed_kubelet :
    (∃ given, (perform (run
          ((Outside.agreeing (onePod "exporter" " 10.0.0.9")).context (.oneHost (.v4 ⟨10, 0, 0, 9⟩) "ops"))
          [.under ⟨.service, "restart", true⟩ (sampleOf [("name", "kubelet"), ("pod", "exporter")])]) ()).events =
        [.listed "" (some (.ok (onePod "exporter" " 10.0.0.9"))), .ran given] ∧
      given.target.host = .v4 ⟨10, 0, 0, 9⟩ ∧
      given.text = wrapPrivileged "systemctl restart kubelet") ∧
    (perform (recover ((Outside.agreeing (onePod "exporter" "10.0.0.8")).context
        (.oneHost (.v4 ⟨10, 0, 0, 9⟩) "ops")) "restart" (.service ⟨"kubelet", "exporter", ""⟩)) ()).result =
      some (.error (.serviceActionFailed "kubelet" "exporter" "systemctl restart kubelet"
        (.hostNotRegistered (.v4 ⟨10, 0, 0, 8⟩)))) ∧
    (perform (recover ((Outside.agreeing (onePod "exporter" "pending")).context
        (.oneHost (.v4 ⟨10, 0, 0, 9⟩) "ops")) "sync" (.pod ⟨"exporter", "monitoring", ""⟩)) ()).events =
      [.listed "monitoring" (some (.ok (onePod "exporter" "pending")))] ∧
    (perform (recover ((Outside.agreeing (onePod "exporter" "pending")).context
        (.oneHost (.v4 ⟨10, 0, 0, 9⟩) "ops")) "sync" (.pod ⟨"exporter", "monitoring", ""⟩)) ()).result =
      some (.error (.shellFailed "monitoring" "exporter" "sync" (.hostUnresolved "exporter" "monitoring"))) := by
  refine ⟨?_, ?_, ?_⟩
  · have hagenda : agenda
        [.under ⟨.service, "restart", true⟩ (sampleOf [("name", "kubelet"), ("pod", "exporter")])] =
        [.recover "rule" "restart" (.service ⟨"kubelet", "exporter", ""⟩)] := rfl
    have hcommand : (ServiceAction.parse "restart").command "kubelet" = "systemctl restart kubelet" := rfl
    have hhost : hostIn (onePod "exporter" " 10.0.0.9") "exporter" = some (.v4 ⟨10, 0, 0, 9⟩) := rfl
    have hentry : (Setup.oneHost (.v4 ⟨10, 0, 0, 9⟩) "ops").registry.entry? (.v4 ⟨10, 0, 0, 9⟩) =
        some ⟨[.v4 ⟨10, 0, 0, 9⟩], [], .empty, []⟩ := rfl
    have hlist : ((Outside.agreeing (onePod "exporter" " 10.0.0.9")).listPods "" ()).1 =
        some (.ok (onePod "exporter" " 10.0.0.9")) := rfl
    have hnamed : "systemctl restart kubelet" ≠ "" := by decide
    have hfound := runOnHostOf_found _ _ hlist hhost hentry "systemctl restart kubelet"
    obtain ⟨v, hv⟩ := (Outside.agreeing (onePod "exporter" " 10.0.0.9")).runEach_single
      (.oneHost (.v4 ⟨10, 0, 0, 9⟩) "ops") _ hnamed _
    rw [hv] at hfound
    have hevents : ∃ given, (perform (run
        ((Outside.agreeing (onePod "exporter" " 10.0.0.9")).context (.oneHost (.v4 ⟨10, 0, 0, 9⟩) "ops"))
        [.under ⟨.service, "restart", true⟩ (sampleOf [("name", "kubelet"), ("pod", "exporter")])]) ()).events =
        [.listed "" (some (.ok (onePod "exporter" " 10.0.0.9"))), .ran given] := by
      rw [run_course, hagenda, pursue_events]
      simp only [rounds, Job.course, recover, recoverService, perform_explain, hcommand, hfound]
      exact ⟨_, rfl⟩
    obtain ⟨given, hgiven⟩ := hevents
    obtain ⟨r, hr, recovery, sets, hrec, hsets, labels, hlabels, a, ha, -, -, ⟨entry, hmem, hlists⟩, hcred, -, htext⟩ :=
      (command_placed _ _ _ ()).1 [.listed "" (some (.ok (onePod "exporter" " 10.0.0.9")))] given [] hgiven
    obtain rfl := List.mem_singleton.mp hr
    obtain rfl := Option.some.inj hrec
    obtain rfl := Option.some.inj hsets
    obtain rfl := List.mem_singleton.mp hlabels
    obtain rfl := List.mem_singleton.mp hmem
    have hhost : given.target.host = .v4 ⟨10, 0, 0, 9⟩ := List.mem_singleton.mp hlists
    rw [hhost] at hcred
    have huser : given.target.credential.user = "ops" :=
      (congrArg Credential.user (Except.ok.inj hcred)).symm
    refine ⟨given, hgiven, hhost, ?_⟩
    rw [htext, ← ha, huser, if_neg (show ¬"ops" = "root" by decide)]
    rfl
  · exact (((command_placed _ _ [] ()).2 "restart" (.service ⟨"kubelet", "exporter", ""⟩) () rfl).2 _ rfl).2
      (.v4 ⟨10, 0, 0, 8⟩) rfl (by decide) |>.2
  · exact (((command_placed _ _ [] ()).2 "sync" (.pod ⟨"exporter", "monitoring", ""⟩) () rfl).2 _ rfl).1 rfl

end Recovery

end SelfHealing
