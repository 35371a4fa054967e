import SelfHealing.Proofs.Outside
import SelfHealing.Proofs.Registry.Entry

/-!
What one recovery does to the outside. Main statement: every recovery is one of a few remedies, each a fixed
sequence of at most two questions, and its failure is the failure of its last question in the words of its anomaly.
-/

namespace SelfHealing

open Command Net Observation Recovery Text Time

abbrev Observation.Outside.recovery {W : Type} (o : Outside W) (s : Setup) (action : String) (a : Anomaly) (w : W) :
    Course W (Except Error Unit) := perform (Recovery.recover (o.context s) action a) w

namespace Anomaly

def searchSpace : Anomaly → String
  | pod p => p.space
  | service _ => ""

def isLocated (action : String) : Anomaly → Bool
  | pod _ => action ≠ "delete" && action ≠ "restart"
  | service _ => true

def lifecycleVerbs : List String := ["start", "stop", "restart", "enable", "disable"]

def command (action : String) : Anomaly → String
  | pod _ => action
  | service s => if action ∈ lifecycleVerbs then "systemctl " ++ action ++ " " ++ s.service else action

def failure (action : String) : Anomaly → Error → Error
  | pod p =>
    if action = "delete" then .deleteFailed p.space p.name
    else if action = "restart" then .restartFailed p.space p.name
    else .shellFailed p.space p.name action
  | service s => .serviceActionFailed s.service s.pod (command action (service s))

end Anomaly

theorem PodAction.parse_eq (action : String) :
    PodAction.parse action =
      if action = "delete" then .delete else if action = "restart" then .restart else .shell action := by
  unfold PodAction.parse
  split <;> simp_all

theorem Verb.ofName?_eq_none {action : String} (h : action ∉ Anomaly.lifecycleVerbs) :
    Verb.ofName? action = none := by
  simp only [Anomaly.lifecycleVerbs, List.mem_cons, List.not_mem_nil, or_false, not_or] at h
  obtain ⟨h₁, h₂, h₃, h₄, h₅⟩ := h
  simp [Verb.ofName?, Verb.all, Verb.name, Ne.symm h₁, Ne.symm h₂, Ne.symm h₃, Ne.symm h₄, Ne.symm h₅]

theorem Verb.ofName?_eq_some {action : String} (h : action ∈ Anomaly.lifecycleVerbs) :
    ∃ verb, Verb.ofName? action = some verb ∧ verb.name = action := by
  simp only [Anomaly.lifecycleVerbs, List.mem_cons, List.not_mem_nil, or_false] at h
  rcases h with rfl | rfl | rfl | rfl | rfl
  · exact ⟨.start, rfl, rfl⟩
  · exact ⟨.stop, rfl, rfl⟩
  · exact ⟨.restart, rfl, rfl⟩
  · exact ⟨.enable, rfl, rfl⟩
  · exact ⟨.disable, rfl, rfl⟩

theorem ServiceAction.command_parse (action : String) (s : ServiceAnomaly) :
    (ServiceAction.parse action).command s.service = Anomaly.command action (.service s) := by
  unfold ServiceAction.parse Anomaly.command
  by_cases h : action ∈ Anomaly.lifecycleVerbs
  · obtain ⟨verb, hv, hn⟩ := Verb.ofName?_eq_some h
    simp only [hv, h, if_true, ServiceAction.command, hn]
    rfl
  · simp only [Verb.ofName?_eq_none h, h, if_false, ServiceAction.command]

def hostIn (pods : List PodSummary) (name : String) : Option Address :=
  (pods.find? (·.name = name)).bind fun p ↦ Address.parse? (trim p.hostText)

theorem HostLocation.address?_unknown : HostLocation.unknown.address? = none := by
  have h : trim "" = "" := by simp [trim, trimChars, dropTrailing]
  simp only [HostLocation.unknown, HostLocation.address?, h]
  decide

theorem locationIn_address? (pods : List PodSummary) (name : String) :
    (Cluster.locationIn pods name).address? = hostIn pods name := by
  unfold Cluster.locationIn hostIn
  cases pods.find? (·.name = name) with
  | none => simp only [Option.bind_none, HostLocation.address?_unknown]
  | some p => simp only [Option.bind_some, HostLocation.address?]

namespace Recovery

/-- All that a command for the host of a pod can come to. -/
inductive HostRun (s : Setup) (pod space command : String) : List Event → Option (Except Error Unit) → Prop
  | unlisted (answer : Option (Except Error (List PodSummary))) (h : ∀ pods, answer ≠ some (.ok pods)) :
      HostRun s pod space command [.listed space answer] (settled answer)
  | unresolved (pods : List PodSummary) (h : hostIn pods pod = none) :
      HostRun s pod space command [.listed space (some (.ok pods))] (some (.error (.hostUnresolved pod space)))
  | unregistered (pods : List PodSummary) (host : Address) (h : hostIn pods pod = some host)
      (he : s.registry.entry? host = none) :
      HostRun s pod space command [.listed space (some (.ok pods))] (some (.error (.hostNotRegistered host)))
  | idle (pods : List PodSummary) (host : Address) (entry : HostEntry) (h : hostIn pods pod = some host)
      (he : s.registry.entry? host = some entry) (hc : command = "") :
      HostRun s pod space command [.listed space (some (.ok pods))] (some (.ok ()))
  | ran (pods : List PodSummary) (host : Address) (entry : HostEntry) (run : CommandRun)
      (h : hostIn pods pod = some host) (he : s.registry.entry? host = some entry) (hc : command ≠ "")
      (hroute : run.route = if host ∈ s.own then .here else .there)
      (htarget : run.target = ⟨host, s.registry.resolve entry, entry.bindings⟩)
      (htext : run.text = (s.registry.resolve entry).prepare command)
      (hlimit : run.limit = s.options.commandTimeout) (hstreamed : run.streamed = s.options.streamOutput) :
      HostRun s pod space command [.listed space (some (.ok pods)), .ran run] (settled run.verdict)

/-- All that a recovery can come to; a failure is not yet put into the words of the anomaly. -/
inductive Remedy (s : Setup) (action : String) : Anomaly → List Event → Option (Except Error Unit) → Prop
  | undeleted (p : PodAnomaly) (answer : Option (Except Error Unit)) (ha : action = "delete")
      (h : answer ≠ some (.ok ())) :
      Remedy s action (.pod p) [.deleted p.space p.name answer] answer
  | unwatched (p : PodAnomaly) (answer : Option (Except Error (Script Watch.PodItem))) (ha : action = "delete")
      (h : ∀ script, answer ≠ some (.ok script)) :
      Remedy s action (.pod p)
        [.deleted p.space p.name (some (.ok ())), .watched p.space p.name answer] (settled answer)
  | watched (p : PodAnomaly) (script : Script Watch.PodItem) (start : Instant) (ha : action = "delete") :
      Remedy s action (.pod p)
        [.deleted p.space p.name (some (.ok ())), .watched p.space p.name (some (.ok script))]
        ((start.add? s.watchTimeout).map fun _ ↦ .ok ())
  | unfetched (p : PodAnomaly) (answer : Option (Except Error Pod)) (ha : action = "restart")
      (h : ∀ pod, answer ≠ some (.ok pod)) :
      Remedy s action (.pod p) [.fetched p.space p.name answer] (settled answer)
  | submitted (p : PodAnomaly) (pod : Pod) (date : Timestamp) (answer : Option (Except Error Pod))
      (ha : action = "restart") :
      Remedy s action (.pod p)
        [.fetched p.space p.name (some (.ok pod)),
          .replaced p.space p.name (markRestarted date pod) answer] (settled answer)
  | onHost (a : Anomaly) (events : List Event) (result : Option (Except Error Unit))
      (ha : a.isLocated action) (h : HostRun s a.podName a.searchSpace (a.command action) events result) :
      Remedy s action a events result

variable {W : Type} (o : Outside W) (s : Setup)

theorem locate_course (pod space : String) (w : W) :
    perform (locate (o.context s) pod space) w =
      ⟨match (o.listPods space w).1 with
        | some (.ok pods) =>
          match hostIn pods pod with
          | some host => some (.ok host)
          | none => some (.error (.hostUnresolved pod space))
        | some (.error e) => some (.error e)
        | none => none,
      (o.listPods space w).2, [.listed space (o.listPods space w).1]⟩ := by
  have hask : perform (Task.call ((o.context s).cluster.listPods space)) w =
      ⟨(o.listPods space w).1, (o.listPods space w).2, [.listed space (o.listPods space w).1]⟩ :=
    perform_ask _ _ w
  unfold locate Cluster.resolveHost
  simp only [perform_bind, hask]
  rcases (o.listPods space w).1 with _ | e | pods
  · rfl
  · rfl
  · simp only [Course.andThen, perform_pure, locationIn_address?, Course.after, List.append_nil]
    cases hostIn pods pod <;> simp

theorem executeAll_course (host : Address) (commands : List String) (w : W) :
    perform ((o.executor s).executeAll host commands) w =
      match s.registry.target host with
      | .error e => ⟨some (.error e), w, []⟩
      | .ok t => perform ((o.executor s).runEach t commands) w := by
  have hr : (o.executor s).registry = s.registry := rfl
  unfold Executor.executeAll
  rw [perform_bind, perform_ofExcept, hr]
  cases s.registry.target host <;> rfl

/-- A command for the host of a pod begins with a listing, and what follows on it is decided by the host in it. -/
theorem runOnHostOf_course (pod space command : String) (w : W) :
    perform (runOnHostOf (o.context s) pod space command) w =
      match (o.listPods space w).1 with
      | some (.ok pods) =>
        match hostIn pods pod with
        | some host =>
          (perform ((o.executor s).executeAll host [command]) (o.listPods space w).2).after
            [.listed space (some (.ok pods))]
        | none =>
          ⟨some (.error (.hostUnresolved pod space)), (o.listPods space w).2, [.listed space (some (.ok pods))]⟩
      | some (.error e) => ⟨some (.error e), (o.listPods space w).2, [.listed space (some (.error e))]⟩
      | none => ⟨none, (o.listPods space w).2, [.listed space none]⟩ := by
  have hx : (o.context s).executor = o.executor s := rfl
  unfold runOnHostOf
  rw [perform_bind, locate_course]
  rcases (o.listPods space w).1 with _ | e | pods
  · rfl
  · rfl
  · simp only [hx]
    cases hostIn pods pod <;> rfl

theorem runOnHostOf_found {pod space : String} {w : W} {pods : List PodSummary} {host : Address}
    {entry : HostEntry} (hlist : (o.listPods space w).1 = some (.ok pods)) (h : hostIn pods pod = some host)
    (he : s.registry.entry? host = some entry) (command : String) :
    perform (runOnHostOf (o.context s) pod space command) w =
      (perform ((o.executor s).runEach ⟨host, s.registry.resolve entry, entry.bindings⟩ [command])
        (o.listPods space w).2).after [.listed space (some (.ok pods))] := by
  rw [runOnHostOf_course]
  simp only [hlist, h, executeAll_course, Registry.target_of_entry he]

theorem hostRun_course (pod space command : String) (w : W) :
    HostRun s pod space command (perform (runOnHostOf (o.context s) pod space command) w).events
      (perform (runOnHostOf (o.context s) pod space command) w).result := by
  rw [runOnHostOf_course]
  rcases (o.listPods space w).1 with _ | e | pods
  · exact .unlisted none (by simp)
  · exact .unlisted (some (.error e)) (by simp)
  · cases h : hostIn pods pod with
    | none =>
      simp only [h]
      exact .unresolved pods h
    | some host =>
      simp only [h, executeAll_course]
      cases he : s.registry.entry? host with
      | none =>
        rw [Registry.target_of_none he]
        exact .unregistered pods host h he
      | some entry =>
        rw [Registry.target_of_entry he]
        by_cases hc : command = ""
        · simp only [Outside.runEach_cons, if_pos hc, Outside.runEach_nil]
          exact .idle pods host entry h he hc
        · obtain ⟨v, hv⟩ := o.runEach_single s ⟨host, s.registry.resolve entry, entry.bindings⟩ hc
            (o.listPods space w).2
          simp only [hv]
          exact .ran pods host entry _ h he hc (o.handed_route s _ _ _) rfl rfl rfl rfl

/-- The wait for a deletion opens a watch. Once it is open, what it tells decides on the outcome and on nothing else,
and the wait takes its time. -/
theorem awaitDeletion_course (space name : String) (w : W) :
    perform (awaitDeletion (o.context s) space name) w =
      match o.watchPod space name w with
      | (some (.ok script), v) =>
        match (o.now v).1.add? s.watchTimeout with
        | some _ => ⟨some (.ok (Watch.wait s.watchTimeout script).outcome),
            o.pass (Watch.wait s.watchTimeout script).elapsed (o.now v).2, [.watched space name (some (.ok script))]⟩
        | none => ⟨none, (o.now v).2, [.watched space name (some (.ok script))]⟩
      | (some (.error e), v) => ⟨some (.error e), v, [.watched space name (some (.error e))]⟩
      | (none, v) => ⟨none, v, [.watched space name none]⟩ := by
  have hwatch : perform (Task.call ((o.context s).cluster.watchPod space name)) w =
      ⟨(o.watchPod space name w).1, (o.watchPod space name w).2,
        [.watched space name (o.watchPod space name w).1]⟩ := perform_ask _ _ w
  have hnow (v : W) : perform (Task.lift (o.context s).clock.now) v =
      ⟨some (.ok (o.now v).1), (o.now v).2, []⟩ := perform_quietly _ v
  have hpass (d : Duration) (v : W) : perform (Task.lift ((o.context s).clock.pass d)) v =
      ⟨some (.ok ()), o.pass d v, []⟩ := perform_quietly _ v
  have hlimit : (o.context s).watchTimeout = s.watchTimeout := rfl
  unfold awaitDeletion
  simp only [perform_bind, hwatch]
  rcases o.watchPod space name w with ⟨_ | e | script, v⟩
  · rfl
  · rfl
  · simp only [Course.andThen_ok, hnow, hlimit, Watch.waitFrom?]
    cases (o.now v).1.add? s.watchTimeout with
    | none => rfl
    | some last =>
      simp only [Option.map_some, perform_bind, hpass]
      rfl

theorem deletePod_course (p : PodAnomaly) (w : W) :
    perform (deletePod (o.context s) p) w =
      match o.deletePod p.space p.name w with
      | (some (.ok _), v) =>
        let waited := perform (awaitDeletion (o.context s) p.space p.name) v
        ⟨settled waited.result, waited.world, .deleted p.space p.name (some (.ok ())) :: waited.events⟩
      | (some (.error e), v) => ⟨some (.error e), v, [.deleted p.space p.name (some (.error e))]⟩
      | (none, v) => ⟨none, v, [.deleted p.space p.name none]⟩ := by
  have hdelete : perform (Task.call ((o.context s).cluster.deletePod p.space p.name)) w =
      ⟨(o.deletePod p.space p.name w).1, (o.deletePod p.space p.name w).2,
        [.deleted p.space p.name (o.deletePod p.space p.name w).1]⟩ := perform_ask _ _ w
  unfold deletePod
  simp only [perform_bind, hdelete]
  rcases o.deletePod p.space p.name w with ⟨_ | e | _, v⟩
  · rfl
  · rfl
  · simp only [Course.andThen_ok]
    rcases perform (awaitDeletion (o.context s) p.space p.name) v with ⟨_ | e | outcome, u, events⟩
    · rfl
    · rfl
    · simp [Course.after, settled, Except.map]

theorem deletePod_remedy {action : String} (ha : action = "delete") (p : PodAnomaly) (w : W) :
    Remedy s action (.pod p) (perform (deletePod (o.context s) p) w).events
      (perform (deletePod (o.context s) p) w).result := by
  rw [deletePod_course]
  rcases o.deletePod p.space p.name w with ⟨_ | e | _, v⟩
  · exact .undeleted p none ha (by simp)
  · exact .undeleted p (some (.error e)) ha (by simp)
  · simp only [awaitDeletion_course]
    rcases o.watchPod p.space p.name v with ⟨_ | e | script, u⟩
    · exact .unwatched p none ha (by simp)
    · exact .unwatched p (some (.error e)) ha (by simp)
    · have hw := Remedy.watched (s := s) p script (o.now u).1 ha
      cases hlast : (o.now u).1.add? s.watchTimeout with
      | none =>
        rw [hlast] at hw
        simp only [hlast]
        exact hw
      | some last =>
        rw [hlast] at hw
        simp only [hlast]
        exact hw

theorem restartPod_course (p : PodAnomaly) (w : W) :
    perform (restartPod (o.context s) p) w =
      match o.getPod p.space p.name w with
      | (some (.ok pod), v) =>
        let marked := markRestarted (o.date v).1 pod
        let put := o.replacePod p.space p.name marked (o.date v).2
        ⟨settled put.1, put.2, [.fetched p.space p.name (some (.ok pod)), .replaced p.space p.name marked put.1]⟩
      | (some (.error e), v) => ⟨some (.error e), v, [.fetched p.space p.name (some (.error e))]⟩
      | (none, v) => ⟨none, v, [.fetched p.space p.name none]⟩ := by
  have hget : perform (Task.call ((o.context s).cluster.getPod p.space p.name)) w =
      ⟨(o.getPod p.space p.name w).1, (o.getPod p.space p.name w).2,
        [.fetched p.space p.name (o.getPod p.space p.name w).1]⟩ := perform_ask _ _ w
  have hdate (v : W) : perform (Task.lift (o.context s).clock.date) v =
      ⟨some (.ok (o.date v).1), (o.date v).2, []⟩ := perform_quietly _ v
  have hput (pod : Pod) (v : W) : perform (Task.call ((o.context s).cluster.replacePod p.space p.name pod)) v =
      ⟨(o.replacePod p.space p.name pod v).1, (o.replacePod p.space p.name pod v).2,
        [.replaced p.space p.name pod (o.replacePod p.space p.name pod v).1]⟩ := perform_ask _ _ v
  unfold restartPod
  simp only [perform_bind, hget]
  rcases o.getPod p.space p.name w with ⟨_ | e | pod, v⟩
  · rfl
  · rfl
  · simp only [Course.andThen_ok, hdate, hput]
    rcases o.replacePod p.space p.name (markRestarted (o.date v).1 pod) (o.date v).2 with ⟨_ | e | stored, u⟩ <;> rfl

theorem restartPod_remedy {action : String} (ha : action = "restart") (p : PodAnomaly) (w : W) :
    Remedy s action (.pod p) (perform (restartPod (o.context s) p) w).events
      (perform (restartPod (o.context s) p) w).result := by
  rw [restartPod_course]
  rcases o.getPod p.space p.name w with ⟨_ | e | pod, v⟩
  · exact .unfetched p none ha (by simp)
  · exact .unfetched p (some (.error e)) ha (by simp)
  · exact .submitted p pod _ _ ha

/-- A recovery that looks up the host is a command for that host. -/
theorem recover_located {action : String} {a : Anomaly} (ha : a.isLocated action) (w : W) :
    perform (recover (o.context s) action a) w =
      (perform (runOnHostOf (o.context s) a.podName a.searchSpace (a.command action)) w).explain
        (a.failure action) := by
  cases a with
  | pod p =>
    obtain ⟨hd, hr⟩ : action ≠ "delete" ∧ action ≠ "restart" := by simpa [Anomaly.isLocated] using ha
    unfold recover
    simp only [PodAction.parse_eq, hd, hr, if_false, recoverPod, perform_explain, Anomaly.failure]
    rfl
  | service svc =>
    simp only [recover, recoverService, ServiceAction.command_parse, perform_explain, Anomaly.failure]
    rfl

/-- Every recovery comes to one of the remedies, and its failure is told in the words of the anomaly. -/
theorem recover_remedy (action : String) (a : Anomaly) (w : W) :
    ∃ result, Remedy s action a (perform (recover (o.context s) action a) w).events result ∧
      (perform (recover (o.context s) action a) w).result =
        result.map (Except.mapError (a.failure action)) := by
  by_cases ha : a.isLocated action
  · rw [recover_located o s ha]
    exact ⟨_, .onHost _ _ _ ha (hostRun_course o s ..), rfl⟩
  · cases a with
    | service svc => exact absurd rfl ha
    | pod p =>
      by_cases hd : action = "delete"
      · subst hd
        have hcourse : perform (recover (o.context s) "delete" (.pod p)) w =
            (perform (deletePod (o.context s) p) w).explain (.deleteFailed p.space p.name) := perform_explain _ _ w
        rw [hcourse]
        exact ⟨_, deletePod_remedy o s rfl p w, rfl⟩
      · obtain rfl : action = "restart" := by simpa [Anomaly.isLocated, hd] using ha
        have hcourse : perform (recover (o.context s) "restart" (.pod p)) w =
            (perform (restartPod (o.context s) p) w).explain (.restartFailed p.space p.name) := perform_explain _ _ w
        rw [hcourse]
        exact ⟨_, restartPod_remedy o s rfl p w, rfl⟩

end Recovery

end SelfHealing
