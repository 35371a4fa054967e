import Mathlib.Data.List.Forall2
import SelfHealing.Proofs.Recovery.Placement

/-!
What a pass that succeeds has done. Main statement: its events fall into one part for each anomaly, in order, and each
part is one remedy that was accepted; only a job without an action is passed over, once its host is found.
-/

namespace SelfHealing

open Command Net Observation Time

theorem Anomaly.command_eq_empty {action : String} {a : Anomaly} : a.command action = "" ↔ action = "" := by
  cases a with
  | pod p => rfl
  | service s =>
    simp only [Anomaly.command]
    by_cases h : action ∈ lifecycleVerbs
    · rw [if_pos h]
      refine ⟨fun he ↦ ?_, fun he ↦ ?_⟩
      · simp only [String.append_eq_empty_iff] at he
        exact he.1.1.2
      · exact absurd (he ▸ h) (by decide)
    · rw [if_neg h]

theorem CommandRun.verdict_ok {r : CommandRun} {text : String} (h : r.verdict = some (.ok text)) :
    r.answer = some (.ok ⟨0, text⟩) := by
  unfold CommandRun.verdict at h
  rcases hanswer : r.answer with _ | e | ⟨status, shown⟩
  · simp [hanswer] at h
  · simp [hanswer] at h
  · by_cases hz : status = 0
    · simp_all
    · simp [hanswer, hz] at h

namespace Recovery

/-- The events that carry out the remedy of a job, one that was accepted by whoever was asked. -/
inductive Remedied (s : Setup) : Job → List Event → Prop
  | deleted (rule : String) (p : PodAnomaly) (script : Script Watch.PodItem) :
      Remedied s (.recover rule "delete" (.pod p))
        [.deleted p.space p.name (some (.ok ())), .watched p.space p.name (some (.ok script))]
  | restarted (rule : String) (p : PodAnomaly) (pod : Pod) (date : Timestamp) (stored : Pod) :
      Remedied s (.recover rule "restart" (.pod p))
        [.fetched p.space p.name (some (.ok pod)),
          .replaced p.space p.name (markRestarted date pod) (some (.ok stored))]
  | ran (rule action : String) (a : Anomaly) (pods : List PodSummary) (given : CommandRun) (text : String)
      (ha : a.isLocated action) (hc : action ≠ "") (h : hostIn pods a.podName = some given.target.host)
      (htarget : s.registry.target given.target.host = .ok given.target)
      (hroute : given.route = if given.target.host ∈ s.own then .here else .there)
      (htext : given.text = given.target.credential.prepare (a.command action))
      (hanswer : given.answer = some (.ok ⟨0, text⟩)) :
      Remedied s (.recover rule action a) [.listed a.searchSpace (some (.ok pods)), .ran given]

/-- The events of a job without an action: its host is found, and nothing is run there. -/
inductive PassedOver (s : Setup) : Job → List Event → Prop
  | idle (rule : String) (a : Anomaly) (pods : List PodSummary) (host : Address) (target : Target)
      (h : hostIn pods a.podName = some host) (htarget : s.registry.target host = .ok target) :
      PassedOver s (.recover rule "" a) [.listed a.searchSpace (some (.ok pods))]

theorem Remedied.action_ne {s : Setup} {rule action : String} {a : Anomaly} {events : List Event}
    (h : Remedied s (.recover rule action a) events) : action ≠ "" := by
  generalize hjob : Job.recover rule action a = job at h
  cases h with
  | deleted rule p script =>
    obtain ⟨-, rfl, -⟩ := Job.recover.inj hjob
    decide
  | restarted rule p pod date stored =>
    obtain ⟨-, rfl, -⟩ := Job.recover.inj hjob
    decide
  | ran rule action a pods given text ha hc =>
    obtain ⟨-, rfl, -⟩ := Job.recover.inj hjob
    exact hc

theorem settled_ok {α : Type} {answer : Option (Except Error α)} (h : settled answer = some (.ok ())) :
    ∃ a, answer = some (.ok a) := by
  rcases answer with _ | e | a
  · cases h
  · cases h
  · exact ⟨a, rfl⟩

theorem ok_of_mapError_ok {f : Error → Error} {result : Option (Except Error Unit)}
    (h : result.map (Except.mapError f) = some (.ok ())) : result = some (.ok ()) := by
  rcases result with _ | e | _
  · cases h
  · cases h
  · rfl

theorem HostRun.succeeded {s : Setup} {a : Anomaly} {action : String} {events : List Event} (rule : String)
    (h : HostRun s a.podName a.searchSpace (a.command action) events (some (.ok ()))) (ha : a.isLocated action) :
    Remedied s (.recover rule action a) events ∨ PassedOver s (.recover rule action a) events := by
  generalize hresult : some (Except.ok ()) = result at h
  cases h with
  | unlisted answer h =>
    obtain ⟨pods, hpods⟩ := settled_ok hresult.symm
    exact absurd hpods (h pods)
  | unresolved | unregistered => simp at hresult
  | idle pods host entry h he hc =>
    obtain rfl := Anomaly.command_eq_empty.mp hc
    exact .inr (.idle rule a pods host _ h (Registry.target_of_entry he))
  | ran pods host entry given h he hc hroute htarget htext =>
    obtain ⟨text, htext'⟩ := settled_ok hresult.symm
    have hhost : given.target.host = host := by rw [htarget]
    subst hhost
    refine .inl (.ran rule action a pods given text ha (mt Anomaly.command_eq_empty.mpr hc) h ?_ hroute ?_
      (CommandRun.verdict_ok htext'))
    · rw [Registry.target_of_entry he, ← htarget]
    · rw [htext, htarget]

theorem Remedy.succeeded {s : Setup} {action : String} {a : Anomaly} {events : List Event} (rule : String)
    (h : Remedy s action a events (some (.ok ()))) :
    Remedied s (.recover rule action a) events ∨ PassedOver s (.recover rule action a) events := by
  generalize hresult : some (Except.ok ()) = result at h
  cases h with
  | undeleted p answer ha h => exact absurd hresult.symm h
  | unwatched p answer ha h =>
    obtain ⟨script, hscript⟩ := settled_ok hresult.symm
    exact absurd hscript (h script)
  | watched p script start ha =>
    subst ha
    exact .inl (.deleted rule p script)
  | unfetched p answer ha h =>
    obtain ⟨pod, hpod⟩ := settled_ok hresult.symm
    exact absurd hpod (h pod)
  | submitted p pod date answer ha =>
    obtain ⟨stored, rfl⟩ := settled_ok hresult.symm
    subst ha
    exact .inl (.restarted rule p pod date stored)
  | onHost a events result ha h =>
    subst hresult
    exact h.succeeded rule ha

variable {W : Type}

theorem Job.succeeded (o : Outside W) (s : Setup) (job : Job) (w : W)
    (h : (job.course (o.context s) w).result = some (.ok ())) :
    Remedied s job (job.course (o.context s) w).events ∨ PassedOver s job (job.course (o.context s) w).events := by
  cases job with
  | refuse rule kind => simp [Job.course] at h
  | recover rule action a =>
    obtain ⟨result, hremedy, hresult⟩ := recover_remedy o s action a w
    obtain rfl := ok_of_mapError_ok (hresult.symm.trans h)
    exact hremedy.succeeded rule

theorem upToFailure_eq_self {courses : List (Course W (Except Error Unit))}
    (h : ∀ c ∈ courses, c.result = some (.ok ())) : upToFailure courses = courses := by
  induction courses with
  | nil => rfl
  | cons c rest ih =>
    obtain ⟨hc, hrest⟩ := List.forall_mem_cons.mp h
    simp only [upToFailure, hc, ih hrest]

theorem rounds_succeeded (o : Outside W) (s : Setup) (jobs : List Job) (w : W)
    (h : ∀ c ∈ rounds (o.context s) w jobs, c.result = some (.ok ())) :
    List.Forall₂ (fun job events ↦ Remedied s job events ∨ PassedOver s job events) jobs
      ((rounds (o.context s) w jobs).map Course.events) := by
  induction jobs generalizing w with
  | nil => exact .nil
  | cons job rest ih =>
    obtain ⟨hjob, hrest⟩ := List.forall_mem_cons.mp h
    exact .cons (job.succeeded o s w hjob) (ih _ hrest)

/-- A pass that succeeds has carried out one remedy for each job of its agenda, in order, and done nothing else. The
exception is a job without an action, which is passed over. -/
theorem pass_remedied (o : Outside W) (s : Setup) (results : List RuleResult) (w : W)
    (h : (perform (run (o.context s) results) w).result = some (.ok ())) :
    ∃ parts, (perform (run (o.context s) results) w).events = parts.flatten ∧
      List.Forall₂ (fun job events ↦ Remedied s job events ∨ PassedOver s job events) (agenda results) parts := by
  rw [run_course] at h ⊢
  have hall := (pursue_ok_iff (o.context s) (agenda results) w).mp h
  refine ⟨_, ?_, rounds_succeeded o s (agenda results) w hall⟩
  rw [pursue_events, upToFailure_eq_self hall, List.flatMap_def]

theorem pass_remedied_deletion :
    (perform (run ((Outside.agreeing []).context (.oneHost default "root"))
        [.under ⟨.pod, "delete", true⟩ (sampleOf [("namespace", "prod"), ("pod", "api-0")])]) ()).result =
      some (.ok ()) ∧
    ∃ parts, parts.flatten = [.deleted "prod" "api-0" (some (.ok ())),
        .watched "prod" "api-0" (some (.ok ⟨[], .closed⟩))] ∧
      List.Forall₂ (fun job events ↦ Remedied (.oneHost default "root") job events ∨
        PassedOver (.oneHost default "root") job events)
        [.recover "rule" "delete" (.pod ⟨"api-0", "prod", ""⟩)] parts := by
  have hok : (perform (run ((Outside.agreeing []).context (.oneHost default "root"))
      [.under ⟨.pod, "delete", true⟩ (sampleOf [("namespace", "prod"), ("pod", "api-0")])]) ()).result =
      some (.ok ()) := rfl
  obtain ⟨parts, hevents, hparts⟩ := pass_remedied _ _ _ _ hok
  exact ⟨hok, parts, hevents.symm, hparts⟩

/-- A pass can succeed without a remedy: nothing is deleted, replaced or run for a rule that leaves out its action. -/
theorem pass_without_remedy :
    (perform (run ((Outside.agreeing (onePod "api-0" "10.0.0.9")).context (.oneHost (.v4 ⟨10, 0, 0, 9⟩) "root"))
        [.under ⟨.pod, "", true⟩ (sampleOf [("namespace", "prod"), ("pod", "api-0")])]) ()).result =
      some (.ok ()) ∧
    ¬∃ parts, (perform (run ((Outside.agreeing (onePod "api-0" "10.0.0.9")).context
        (.oneHost (.v4 ⟨10, 0, 0, 9⟩) "root"))
        [.under ⟨.pod, "", true⟩ (sampleOf [("namespace", "prod"), ("pod", "api-0")])]) ()).events =
        parts.flatten ∧
      List.Forall₂ (Remedied (.oneHost (.v4 ⟨10, 0, 0, 9⟩) "root"))
        [.recover "rule" "" (.pod ⟨"api-0", "prod", ""⟩)] parts := by
  have hagenda : agenda [.under ⟨.pod, "", true⟩ (sampleOf [("namespace", "prod"), ("pod", "api-0")])] =
      [.recover "rule" "" (.pod ⟨"api-0", "prod", ""⟩)] := rfl
  have hparse : PodAction.parse "" = .shell "" := rfl
  have hlist : ((Outside.agreeing (onePod "api-0" "10.0.0.9")).listPods "prod" ()).1 =
      some (.ok (onePod "api-0" "10.0.0.9")) := rfl
  have hhost : hostIn (onePod "api-0" "10.0.0.9") "api-0" = some (.v4 ⟨10, 0, 0, 9⟩) := rfl
  have hentry : (Setup.oneHost (.v4 ⟨10, 0, 0, 9⟩) "root").registry.entry? (.v4 ⟨10, 0, 0, 9⟩) =
      some ⟨[.v4 ⟨10, 0, 0, 9⟩], [], .empty, []⟩ := rfl
  have hfound := runOnHostOf_found _ _ hlist hhost hentry ""
  rw [Outside.runEach_cons, if_pos rfl, Outside.runEach_nil] at hfound
  have hpass : perform (run ((Outside.agreeing (onePod "api-0" "10.0.0.9")).context
      (.oneHost (.v4 ⟨10, 0, 0, 9⟩) "root"))
      [.under ⟨.pod, "", true⟩ (sampleOf [("namespace", "prod"), ("pod", "api-0")])]) () =
      ⟨some (.ok ()), (), [.listed "prod" (some (.ok (onePod "api-0" "10.0.0.9")))]⟩ := by
    rw [run_course, hagenda]
    simp only [pursue, Job.course, recover, recoverPod, hparse, perform_explain, hfound]
    rfl
  rw [hpass]
  refine ⟨rfl, ?_⟩
  rintro ⟨parts, -, hall⟩
  cases hall with
  | cons hjob hrest => exact hjob.action_ne rfl

end Recovery

end SelfHealing
