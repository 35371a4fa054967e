import SelfHealing.Proofs.Recovery.Remedy

/-!
Work that is aborted, so that it neither comes to an end nor waits for one. Main statement: a recovery pass is aborted
if and only if a pod has been deleted and is watched, and the clock has no moment at which the wait for it would end.
-/

namespace SelfHealing

open Command Net Recovery Time

namespace Observation

variable {W α β ε ε' : Type}

/-- The work is aborted: it neither comes to an end nor waits for one. -/
def Aborts (x : OptionT (Observed W) α) (w : W) : Prop := (x.run w).result = some none

section Aborts

theorem not_aborts_pure (a : α) (w : W) : ¬Aborts (pure a) w := fun h ↦ nomatch h

theorem not_aborts_lift (x : Observed W α) (w : W) : ¬Aborts (OptionT.lift x) w := by
  have h : (OptionT.lift x).run w = (x w).followed fun a v ↦ ⟨some (some a), v, []⟩ := rfl
  unfold Aborts
  rw [h]
  rcases x w with ⟨_ | a, v, events⟩ <;> exact nofun

theorem aborts_abort (w : W) : Aborts (ExceptT.run (Task.abort : Task (Observed W) α)) w := rfl

/-- Work is aborted in its first part, or in what follows on the value of that. -/
theorem aborts_bind_iff (x : OptionT (Observed W) α) (f : α → OptionT (Observed W) β) (w : W) :
    Aborts (x >>= f) w ↔ Aborts x w ∨ ∃ a v events, x.run w = ⟨some (some a), v, events⟩ ∧ Aborts (f a) v := by
  have h : (x >>= f).run w =
      (x.run w).followed fun r ↦ r.elim (pure none : Observed W (Option β)) fun a ↦ (f a).run := by
    rw [OptionT.run_bind]
    rfl
  unfold Aborts
  rw [h]
  rcases x.run w with ⟨_ | _ | a, v, events⟩
  · simp [Course.followed]
  · exact iff_of_true rfl (.inl rfl)
  · constructor
    · exact fun hf ↦ .inr ⟨a, v, events, rfl, hf⟩
    · rintro (h | ⟨_, _, _, h, hf⟩)
      · cases h
      · cases h
        exact hf

theorem aborts_bind_pure_iff (x : OptionT (Observed W) α) (g : α → β) (w : W) :
    Aborts (x >>= fun a ↦ pure (g a)) w ↔ Aborts x w := by
  refine (aborts_bind_iff x _ w).trans (or_iff_left ?_)
  rintro ⟨a, v, events, -, h⟩
  exact not_aborts_pure _ v h

variable {x : ExceptT ε (OptionT (Observed W)) α} {f : α → ExceptT ε (OptionT (Observed W)) β} {w : W}

theorem aborts_andThen_iff : Aborts (x >>= f).run w ↔
    Aborts x.run w ∨ ∃ a v events, x.run.run w = ⟨some (some (.ok a)), v, events⟩ ∧ Aborts (f a).run v := by
  have h : (x >>= f).run = x.run >>= ExceptT.bindCont f := rfl
  rw [h, aborts_bind_iff]
  apply or_congr_right
  constructor
  · rintro ⟨e | a, v, events, hx, hf⟩
    · exact absurd hf (not_aborts_pure _ v)
    · exact ⟨a, v, events, hx, hf⟩
  · rintro ⟨a, v, events, hx, hf⟩
    exact ⟨.ok a, v, events, hx, hf⟩

theorem aborts_adapt_iff (g : ε → ε') : Aborts (ExceptT.adapt g x).run w ↔ Aborts x.run w :=
  aborts_bind_pure_iff x.run (Except.mapError g) w

end Aborts

def NeverAborts (x : ExceptT ε (OptionT (Observed W)) α) : Prop := ∀ w, ¬Aborts x.run w

namespace NeverAborts

variable {x : ExceptT ε (OptionT (Observed W)) α} {f : α → ExceptT ε (OptionT (Observed W)) β}

theorem pure (a : α) : NeverAborts (Pure.pure a : ExceptT ε (OptionT (Observed W)) α) := not_aborts_pure _

theorem throw (e : ε) : NeverAborts (MonadExcept.throw e : ExceptT ε (OptionT (Observed W)) α) := not_aborts_pure _

theorem aborts_first_iff (hf : ∀ a, NeverAborts (f a)) (w : W) : Aborts (x >>= f).run w ↔ Aborts x.run w := by
  refine aborts_andThen_iff.trans (or_iff_left ?_)
  rintro ⟨a, v, events, -, h⟩
  exact hf a v h

theorem bind (hx : NeverAborts x) (hf : ∀ a, NeverAborts (f a)) : NeverAborts (x >>= f) := fun w h ↦
  hx w ((aborts_first_iff hf w).mp h)

theorem ofExcept (r : Except Error α) : NeverAborts (Task.ofExcept r : Task (Observed W) α) := by
  cases r with
  | ok a => exact .pure a
  | error e => exact .throw e

theorem call (x : Observed W (Except Error α)) : NeverAborts (Task.call x) := not_aborts_lift x

theorem lift (x : Observed W α) : NeverAborts (Task.lift x) := fun w h ↦
  not_aborts_lift x w ((aborts_bind_pure_iff (OptionT.lift x) Except.ok w).mp h)

end NeverAborts

theorem perform_eq_ok_iff {x : Task (Observed W) α} {w v : W} {a : α} {events : List Event} :
    perform x w = ⟨some (.ok a), v, events⟩ ↔ Task.run x w = ⟨some (some (.ok a)), v, events⟩ := by
  unfold perform
  rcases Task.run x w with ⟨_ | _ | r, u, es⟩ <;> simp

section Parts

variable {f : α → Task (Observed W) β} {w : W}

theorem aborts_after_iff {x : Task (Observed W) α} : Aborts (ExceptT.run (x >>= f)) w ↔
    Aborts (ExceptT.run x) w ∨
      ∃ a v events, perform x w = ⟨some (.ok a), v, events⟩ ∧ Aborts (ExceptT.run (f a)) v := by
  simp only [perform_eq_ok_iff]
  exact aborts_andThen_iff

theorem aborts_asked_iff {event : Option (Except Error α) → Event} {answer : W → Option (Except Error α) × W} :
    Aborts (ExceptT.run (Task.call (.ask event answer) >>= f)) w ↔
      ∃ a, (answer w).1 = some (.ok a) ∧ Aborts (ExceptT.run (f a)) (answer w).2 := by
  rw [aborts_after_iff, perform_ask]
  constructor
  · rintro (h | ⟨a, v, events, h, hf⟩)
    · exact absurd h (NeverAborts.call _ w)
    · obtain ⟨hanswer, rfl, -⟩ := Course.mk.inj h
      exact ⟨a, hanswer, hf⟩
  · rintro ⟨a, hanswer, hf⟩
    exact .inr ⟨a, _, _, by rw [hanswer], hf⟩

theorem aborts_quietly_iff {g : W → α × W} :
    Aborts (ExceptT.run (Task.lift (.quietly g) >>= f)) w ↔ Aborts (ExceptT.run (f (g w).1)) (g w).2 := by
  rw [aborts_after_iff, perform_quietly]
  constructor
  · rintro (h | ⟨a, v, events, h, hf⟩)
    · exact absurd h (NeverAborts.lift _ w)
    · obtain ⟨ha, rfl, -⟩ := Course.mk.inj h
      cases ha
      exact hf
  · exact fun hf ↦ .inr ⟨_, _, _, rfl, hf⟩

/-- A list of tasks is aborted in one of them, when all before it have succeeded. -/
theorem aborts_each_iff {ι : Type} (step : ι → Task (Observed W) Unit) (go : List ι → Task (Observed W) Unit)
    (hnil : go [] = pure ()) (hcons : ∀ item rest, go (item :: rest) = step item >>= fun _ ↦ go rest)
    (items : List ι) (w : W) :
    Aborts (ExceptT.run (go items)) w ↔ ∃ front item back v events, items = front ++ item :: back ∧
      perform (go front) w = ⟨some (.ok ()), v, events⟩ ∧ Aborts (ExceptT.run (step item)) v := by
  induction items generalizing w with
  | nil =>
    rw [hnil]
    refine iff_of_false (not_aborts_pure _ w) ?_
    rintro ⟨front, item, back, v, events, hitems, -⟩
    exact List.append_ne_nil_of_right_ne_nil front (List.cons_ne_nil item back) hitems.symm
  | cons item rest ih =>
    rw [hcons, aborts_after_iff]
    constructor
    · rintro (h | ⟨_, v, events, hitem, hrest⟩)
      · exact ⟨[], item, rest, w, [], rfl, by rw [hnil]; rfl, h⟩
      · obtain ⟨front, later, back, u, es, rfl, hfront, h⟩ := (ih v).mp hrest
        refine ⟨item :: front, later, back, u, events ++ es, rfl, ?_, h⟩
        rw [hcons, perform_bind, hitem, Course.andThen_ok, hfront]
        rfl
    · rintro ⟨front, later, back, u, es, hitems, hfront, h⟩
      rcases List.cons_eq_append_iff.mp hitems with ⟨rfl, hhead⟩ | ⟨front, rfl, rfl⟩
      · obtain ⟨rfl, rfl⟩ := List.cons.inj hhead
        rw [hnil] at hfront
        cases hfront
        exact .inl h
      · rw [hcons, perform_bind] at hfront
        rcases hitem : perform (step item) w with ⟨_ | e | _, v, events⟩
        · rw [hitem] at hfront
          cases hfront
        · rw [hitem] at hfront
          cases hfront
        · rw [hitem, Course.andThen_ok] at hfront
          rcases hrest : perform (go front) v with ⟨result, u', es'⟩
          rw [hrest] at hfront
          obtain ⟨rfl, rfl, -⟩ := Course.mk.inj hfront
          exact .inr ⟨(), v, events, rfl, (ih v).mpr ⟨front, later, back, u', es', rfl, hrest, h⟩⟩

end Parts

end Observation

open Observation

namespace Command.Executor

variable {W : Type} (e : Executor (Observed W))

theorem run_neverAborts (t : Target) (command : String) : NeverAborts (e.run t command) := by
  rw [Executor.run_eq]
  exact .bind (.call _) fun output ↦ .ofExcept _

theorem execute_neverAborts (host : Address) (command : String) : NeverAborts (e.execute host command) :=
  .bind (.ofExcept _) fun t ↦ e.run_neverAborts t command

theorem runEach_neverAborts (t : Target) (commands : List String) : NeverAborts (e.runEach t commands) := by
  induction commands with
  | nil => exact .pure ()
  | cons command rest ih =>
    rw [Executor.runEach]
    split
    · exact .bind (e.run_neverAborts t command) fun _ ↦ ih
    · exact ih

theorem executeAll_neverAborts (host : Address) (commands : List String) : NeverAborts (e.executeAll host commands) :=
  .bind (.ofExcept _) fun t ↦ e.runEach_neverAborts t commands

theorem ping_neverAborts (host : Address) : NeverAborts (e.ping host) := by
  unfold Executor.ping
  cases e.route host with
  | here => exact .pure ()
  | there => exact .bind (.ofExcept _) fun t ↦ .call _

end Command.Executor

namespace Recovery

variable {W : Type}

theorem locate_neverAborts (ctx : Context (Observed W)) (pod space : String) : NeverAborts (locate ctx pod space) := by
  refine .bind (.bind (.call _) fun pods ↦ .pure _) fun location ↦ ?_
  cases location.address? with
  | some host => exact .pure host
  | none => exact .throw _

theorem runOnHostOf_neverAborts (ctx : Context (Observed W)) (pod space command : String) :
    NeverAborts (runOnHostOf ctx pod space command) :=
  .bind (locate_neverAborts ctx pod space) fun host ↦ ctx.executor.executeAll_neverAborts host [command]

theorem restartPod_neverAborts (ctx : Context (Observed W)) (p : PodAnomaly) : NeverAborts (restartPod ctx p) :=
  .bind (.call _) fun _ ↦ .bind (.lift _) fun _ ↦ .bind (.call _) fun _ ↦ .pure ()

variable (o : Outside W) (s : Setup)

/-- A pod is deleted and watched, but the clock has no moment at which the wait for it ends. -/
structure Overlong (p : PodAnomaly) (w : W) : Prop where
  deleted : (o.deletePod p.space p.name w).1 = some (.ok ())
  watched : ∃ script, (o.watchPod p.space p.name (o.deletePod p.space p.name w).2).1 = some (.ok script)
  late : (o.now (o.watchPod p.space p.name (o.deletePod p.space p.name w).2).2).1.add? s.watchTimeout = none

theorem awaitDeletion_aborts_iff (space name : String) (w : W) :
    Aborts (ExceptT.run (awaitDeletion (o.context s) space name)) w ↔
      (∃ script, (o.watchPod space name w).1 = some (.ok script)) ∧
        (o.now (o.watchPod space name w).2).1.add? s.watchTimeout = none := by
  refine aborts_asked_iff.trans ⟨?_, ?_⟩
  · rintro ⟨script, hscript, h⟩
    refine ⟨⟨script, hscript⟩, Option.eq_none_iff_forall_ne_some.mpr fun last hlast ↦ ?_⟩
    have hwait := aborts_quietly_iff.mp h
    have hlimit : (o.context s).watchTimeout = s.watchTimeout := rfl
    simp only [hlimit, Watch.waitFrom?, hlast, Option.map_some] at hwait
    exact NeverAborts.bind (.lift _) (fun _ ↦ .pure _) _ hwait
  · rintro ⟨⟨script, hscript⟩, hlate⟩
    refine ⟨script, hscript, aborts_quietly_iff.mpr ?_⟩
    have hlimit : (o.context s).watchTimeout = s.watchTimeout := rfl
    simp only [hlimit, Watch.waitFrom?, hlate, Option.map_none]
    exact aborts_abort _

theorem deletePod_aborts_iff (p : PodAnomaly) (w : W) :
    Aborts (ExceptT.run (deletePod (o.context s) p)) w ↔ Overlong o s p w := by
  have hrest (v : W) : Aborts (ExceptT.run (do
        let _ ← awaitDeletion (o.context s) p.space p.name
        pure () : Task (Observed W) Unit)) v ↔
      Aborts (ExceptT.run (awaitDeletion (o.context s) p.space p.name)) v :=
    NeverAborts.aborts_first_iff (fun _ ↦ .pure ()) v
  refine aborts_asked_iff.trans ⟨?_, ?_⟩
  · rintro ⟨⟨⟩, hdeleted, h⟩
    obtain ⟨hwatched, hlate⟩ := (awaitDeletion_aborts_iff o s p.space p.name _).mp ((hrest _).mp h)
    exact ⟨hdeleted, hwatched, hlate⟩
  · rintro ⟨hdeleted, hwatched, hlate⟩
    exact ⟨(), hdeleted, (hrest _).mpr ((awaitDeletion_aborts_iff o s p.space p.name _).mpr ⟨hwatched, hlate⟩)⟩

/-- Only the deletion of a pod can abort a recovery. -/
theorem recover_aborts_iff (action : String) (a : Anomaly) (w : W) :
    Aborts (ExceptT.run (recover (o.context s) action a)) w ↔
      ∃ p, a = .pod p ∧ action = "delete" ∧ Overlong o s p w := by
  cases a with
  | service svc =>
    refine iff_of_false (fun h ↦ ?_) (by simp)
    exact runOnHostOf_neverAborts _ _ _ _ w ((aborts_adapt_iff _).mp h)
  | pod p =>
    unfold recover
    rw [PodAction.parse_eq]
    by_cases hd : action = "delete"
    · simp only [hd, if_true]
      refine (aborts_adapt_iff _).trans ((deletePod_aborts_iff o s p w).trans ⟨fun h ↦ ⟨p, rfl, trivial, h⟩, ?_⟩)
      rintro ⟨_, ⟨⟩, -, h⟩
      exact h
    · refine iff_of_false (fun h ↦ ?_) (by simp [hd])
      by_cases hr : action = "restart"
      · simp only [hr, if_true, if_neg (show ¬"restart" = "delete" by decide)] at h
        exact restartPod_neverAborts _ p w ((aborts_adapt_iff _).mp h)
      · simp only [hd, hr, if_false] at h
        exact runOnHostOf_neverAborts _ _ _ _ w ((aborts_adapt_iff _).mp h)

/-- A pass that comes to an overlong wait: all rules before have succeeded, and of this rule all samples before. -/
inductive Overruns (results : List RuleResult) (w : W) : Prop
  | intro {before after : List RuleResult} {r : RuleResult} {recovery : Recovery} {v u : W}
      {earlier own : List Event} {front back : List Labels} {labels : Labels} {p : PodAnomaly}
      (hresults : results = before ++ r :: after)
      (hbefore : perform (run (o.context s) before) w = ⟨some (.ok ()), v, earlier⟩)
      (hrecovery : r.rule.enabledRecovery? = some recovery) (haction : recovery.action = "delete")
      (hsets : r.result.labelSets? = some (front ++ labels :: back))
      (hfront : perform (recoverAll (o.context s) recovery.action (front.map (Anomaly.ofLabels recovery.workload))) v =
        ⟨some (.ok ()), u, own⟩)
      (hp : Anomaly.ofLabels recovery.workload labels = .pod p) (hoverlong : Overlong o s p u) :
      Overruns results w

theorem recoverAll_aborts_iff (action : String) (anomalies : List Anomaly) (w : W) :
    Aborts (ExceptT.run (recoverAll (o.context s) action anomalies)) w ↔
      ∃ front a back v events, anomalies = front ++ a :: back ∧
        perform (recoverAll (o.context s) action front) w = ⟨some (.ok ()), v, events⟩ ∧
        Aborts (ExceptT.run (recover (o.context s) action a)) v :=
  aborts_each_iff (recover (o.context s) action) (recoverAll (o.context s) action) rfl (fun _ _ ↦ rfl) anomalies w

theorem recoverRule_aborts_iff (r : RuleResult) (w : W) :
    Aborts (ExceptT.run (recoverRule (o.context s) r)) w ↔
      ∃ recovery sets, r.rule.enabledRecovery? = some recovery ∧ r.result.labelSets? = some sets ∧
        Aborts (ExceptT.run (recoverAll (o.context s) recovery.action
          (sets.map (Anomaly.ofLabels recovery.workload)))) w := by
  unfold recoverRule
  cases r.rule.enabledRecovery? with
  | none => exact iff_of_false (not_aborts_pure _ w) (by simp)
  | some recovery =>
    refine (aborts_adapt_iff _).trans ?_
    rw [classify]
    cases r.result.labelSets? with
    | none => exact iff_of_false (NeverAborts.throw _ w) (by simp)
    | some sets =>
      constructor
      · exact fun h ↦ ⟨recovery, sets, rfl, rfl, h⟩
      · rintro ⟨_, _, ⟨⟩, ⟨⟩, h⟩
        exact h

/-- A pass is aborted if and only if it comes to an overlong wait. -/
theorem run_aborts_iff (results : List RuleResult) (w : W) :
    Aborts (ExceptT.run (run (o.context s) results)) w ↔ Overruns o s results w := by
  refine (aborts_each_iff (recoverRule (o.context s)) (run (o.context s)) rfl (fun _ _ ↦ rfl) results w).trans ⟨?_, ?_⟩
  · rintro ⟨before, r, after, v, earlier, hresults, hbefore, hrule⟩
    obtain ⟨recovery, sets, hrecovery, hsets, hall⟩ := (recoverRule_aborts_iff o s r v).mp hrule
    obtain ⟨front, a, back, u, own, hsplit, hfront, ha⟩ := (recoverAll_aborts_iff o s recovery.action _ v).mp hall
    obtain ⟨first, rest, rfl, rfl, hrest⟩ := List.map_eq_append_iff.mp hsplit
    obtain ⟨labels, others, rfl, hlabels, -⟩ := List.map_eq_cons_iff.mp hrest
    obtain ⟨p, hp, haction, hoverlong⟩ := (recover_aborts_iff o s recovery.action a u).mp ha
    exact .intro hresults hbefore hrecovery haction hsets hfront (hlabels.trans hp) hoverlong
  · rintro ⟨hresults, hbefore, hrecovery, haction, hsets, hfront, hp, hoverlong⟩
    refine ⟨_, _, _, _, _, hresults, hbefore, (recoverRule_aborts_iff o s _ _).mpr ⟨_, _, hrecovery, hsets, ?_⟩⟩
    rw [List.map_append, List.map_cons]
    refine (recoverAll_aborts_iff o s _ _ _).mpr ⟨_, _, _, _, _, rfl, hfront, ?_⟩
    exact (recover_aborts_iff o s _ _ _).mpr ⟨_, hp, haction, hoverlong⟩

end Recovery

end SelfHealing
