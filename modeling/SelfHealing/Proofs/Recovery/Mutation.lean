import SelfHealing.Proofs.Recovery.Abort
import SelfHealing.Proofs.Recovery.Placement

/-!
What a recovery asks of the cluster, and when it succeeds. Main statement: only the deletion and the restart of a pod
change the cluster, each by two calls of which the second is made exactly if the first is granted, and they succeed
exactly if both are, but for a deletion that is aborted; any other recovery lists the pods once and leaves the cluster as
it is.
-/

namespace SelfHealing

open Command Net Observation Time

def Observation.Outside.watching {W : Type} (o : Outside W) (p : PodAnomaly) (w : W) : W :=
  (o.watchPod p.space p.name (o.deletePod p.space p.name w).2).2

namespace Recovery

def Granted {α : Type} (answer : Option (Except Error α)) : Prop := ∃ a, answer = some (.ok a)

theorem granted_settled {α : Type} {answer : Option (Except Error α)} : Granted (settled answer) ↔ Granted answer := by
  rcases answer with _ | e | a <;> simp [Granted, settled, Except.map]

theorem granted_mapError {f : Error → Error} {result : Option (Except Error Unit)} :
    Granted (result.map (Except.mapError f)) ↔ Granted result := by
  rcases result with _ | e | a
  · exact Iff.rfl
  · change Granted (some (.error (f e))) ↔ Granted (some (.error e))
    simp [Granted]
  · exact Iff.rfl

theorem HostRun.asks {s : Setup} {pod space command : String} {events : List Event}
    {result : Option (Except Error Unit)} (h : HostRun s pod space command events result) :
    ∃ listing, ∃ runs : List CommandRun, events = .listed space listing :: runs.map .ran := by
  cases h with
  | unlisted answer h => exact ⟨answer, [], rfl⟩
  | unresolved pods h => exact ⟨some (.ok pods), [], rfl⟩
  | unregistered pods host h he => exact ⟨some (.ok pods), [], rfl⟩
  | idle pods host entry h he hc => exact ⟨some (.ok pods), [], rfl⟩
  | ran pods host entry run => exact ⟨some (.ok pods), [run], rfl⟩

variable {W : Type} (o : Outside W) (s : Setup)

/-- The deletion of a pod asks for a watch exactly if it is accepted. It succeeds exactly if the watch opens and the
clock can hold the end of the wait. -/
theorem deletePod_asks (p : PodAnomaly) (w : W) :
    (∃ refused, ¬Granted refused ∧
      (perform (deletePod (o.context s) p) w).events = [.deleted p.space p.name refused] ∧
      (perform (deletePod (o.context s) p) w).result = refused) ∨
    ∃ opened,
      (perform (deletePod (o.context s) p) w).events =
        [.deleted p.space p.name (some (.ok ())), .watched p.space p.name opened] ∧
      (Granted (perform (deletePod (o.context s) p) w).result ↔
        Granted opened ∧ (o.now (o.watching p w)).1.add? s.watchTimeout ≠ none) ∧
      (Aborts (ExceptT.run (deletePod (o.context s) p)) w ↔
        Granted opened ∧ (o.now (o.watching p w)).1.add? s.watchTimeout = none) := by
  have haborts : Aborts (ExceptT.run (deletePod (o.context s) p)) w ↔
      (o.deletePod p.space p.name w).1 = some (.ok ()) ∧
        Granted (o.watchPod p.space p.name (o.deletePod p.space p.name w).2).1 ∧
        (o.now (o.watching p w)).1.add? s.watchTimeout = none :=
    (deletePod_aborts_iff o s p w).trans ⟨fun h ↦ ⟨h.deleted, h.watched, h.late⟩, fun h ↦ ⟨h.1, h.2.1, h.2.2⟩⟩
  unfold Outside.watching at haborts ⊢
  rw [deletePod_course]
  generalize o.deletePod p.space p.name w = deleted at haborts ⊢
  rcases deleted with ⟨_ | e | _, v⟩
  · exact .inl ⟨none, by simp [Granted], rfl, rfl⟩
  · exact .inl ⟨some (.error e), by simp [Granted], rfl, rfl⟩
  · replace haborts := haborts.trans (and_iff_right rfl)
    simp only [awaitDeletion_course]
    generalize o.watchPod p.space p.name v = watched at haborts ⊢
    rcases watched with ⟨_ | e | script, u⟩
    · exact .inr ⟨none, rfl, by simp [Granted, settled], haborts⟩
    · exact .inr ⟨some (.error e), rfl, by simp [Granted, settled, Except.map], haborts⟩
    · refine .inr ⟨some (.ok script), ?_⟩
      cases hlast : (o.now u).1.add? s.watchTimeout with
      | none =>
        simp only [hlast] at haborts ⊢
        exact ⟨trivial, by simp [Granted, settled], haborts⟩
      | some last =>
        simp only [hlast] at haborts ⊢
        exact ⟨trivial, by simp [Granted, settled, Except.map], haborts⟩

theorem restart_asks (p : PodAnomaly) (w : W) :
    (∃ refused, ¬Granted refused ∧ (o.recovery s "restart" (.pod p) w).events = [.fetched p.space p.name refused] ∧
      ¬Granted (o.recovery s "restart" (.pod p) w).result) ∨
    ∃ pod submitted answer,
      (o.recovery s "restart" (.pod p) w).events =
        [.fetched p.space p.name (some (.ok pod)), .replaced p.space p.name submitted answer] ∧
      (Granted (o.recovery s "restart" (.pod p) w).result ↔ Granted answer) := by
  obtain ⟨result, hremedy, hresult⟩ := recover_remedy o s "restart" (.pod p) w
  rw [hresult, granted_mapError]
  generalize (o.recovery s "restart" (.pod p) w).events = events at hremedy ⊢
  cases hremedy with
  | undeleted p answer ha | unwatched p answer ha | watched p script start ha => exact absurd ha (by decide)
  | unfetched p answer ha h =>
    exact .inl ⟨answer, fun ⟨pod, hpod⟩ ↦ h pod hpod, rfl, fun hg ↦ by
      obtain ⟨pod, hpod⟩ := granted_settled.mp hg
      exact h pod hpod⟩
  | submitted p pod date answer ha => exact .inr ⟨pod, _, answer, rfl, granted_settled⟩
  | onHost a events result ha h => exact absurd ha (by simp [Anomaly.isLocated])

theorem located_asks {action : String} {a : Anomaly} (ha : a.isLocated action) (w : W) :
    ∃ listing, ∃ runs : List CommandRun,
      (o.recovery s action a w).events = .listed a.searchSpace listing :: runs.map .ran := by
  obtain ⟨result, hremedy, -⟩ := recover_remedy o s action a w
  exact (hremedy.listed_inv ha).asks

/-- What recoveries ask, and when they succeed. The deletion of a pod is followed by a watch on it exactly if it is
accepted. It succeeds exactly if the watch opens as well and the clock can hold the end of the wait, whatever is then
seen, and is aborted exactly if the watch opens and the clock can not. The restart of a pod replaces it exactly if it is
fetched, and succeeds exactly if both are granted. Every other recovery lists the pods once, and all else that it asks
for is a command. -/
theorem recovery_asks (w : W) :
    (∀ p,
      (∃ refused, ¬Granted refused ∧ (o.recovery s "delete" (.pod p) w).events = [.deleted p.space p.name refused] ∧
        ¬Granted (o.recovery s "delete" (.pod p) w).result) ∨
      ∃ opened,
        (o.recovery s "delete" (.pod p) w).events =
          [.deleted p.space p.name (some (.ok ())), .watched p.space p.name opened] ∧
        (Granted (o.recovery s "delete" (.pod p) w).result ↔
          Granted opened ∧ (o.now (o.watching p w)).1.add? s.watchTimeout ≠ none) ∧
        (Aborts (ExceptT.run (recover (o.context s) "delete" (.pod p))) w ↔
          Granted opened ∧ (o.now (o.watching p w)).1.add? s.watchTimeout = none)) ∧
    (∀ p,
      (∃ refused, ¬Granted refused ∧ (o.recovery s "restart" (.pod p) w).events = [.fetched p.space p.name refused] ∧
        ¬Granted (o.recovery s "restart" (.pod p) w).result) ∨
      ∃ pod submitted answer,
        (o.recovery s "restart" (.pod p) w).events =
          [.fetched p.space p.name (some (.ok pod)), .replaced p.space p.name submitted answer] ∧
        (Granted (o.recovery s "restart" (.pod p) w).result ↔ Granted answer)) ∧
    (∀ p action, action ≠ "delete" → action ≠ "restart" →
      ∃ listing, ∃ runs : List CommandRun,
        (o.recovery s action (.pod p) w).events = .listed p.space listing :: runs.map .ran) ∧
    ∀ service action,
      ∃ listing, ∃ runs : List CommandRun,
        (o.recovery s action (.service service) w).events = .listed "" listing :: runs.map .ran := by
  refine ⟨fun p ↦ ?_, fun p ↦ restart_asks o s p w, fun p action hd hr ↦ ?_, fun service action ↦ ?_⟩
  · have hcourse : o.recovery s "delete" (.pod p) w =
        (perform (deletePod (o.context s) p) w).explain (.deleteFailed p.space p.name) := perform_explain _ _ w
    have haborts : Aborts (ExceptT.run (recover (o.context s) "delete" (.pod p))) w ↔
        Aborts (ExceptT.run (deletePod (o.context s) p)) w := aborts_adapt_iff _
    simp only [hcourse, haborts, Course.explain, granted_mapError]
    rcases deletePod_asks o s p w with ⟨refused, hrefused, hevents, hresult⟩ | ⟨opened, hevents, hresult⟩
    · exact .inl ⟨refused, hrefused, hevents, hresult ▸ hrefused⟩
    · exact .inr ⟨opened, hevents, hresult⟩
  · exact located_asks o s (by simp [Anomaly.isLocated, hd, hr]) w
  · exact located_asks o s rfl w

/-- A pod is deleted and its watch closes at once, which is a success; another pod only has a command run for it. -/
theorem recovery_asks_closed :
    ((Outside.agreeing []).recovery (.oneHost default "root") "delete" (.pod ⟨"api-0", "prod", ""⟩) ()).events =
        [.deleted "prod" "api-0" (some (.ok ())), .watched "prod" "api-0" (some (.ok ⟨[], .closed⟩))] ∧
      Granted ((Outside.agreeing []).recovery (.oneHost default "root") "delete"
        (.pod ⟨"api-0", "prod", ""⟩) ()).result ∧
      ∃ listing, ∃ runs : List CommandRun,
        ((Outside.agreeing []).recovery (.oneHost default "root") "sync" (.pod ⟨"api-1", "prod", ""⟩) ()).events =
          .listed "prod" listing :: runs.map .ran := by
  have hevents : ((Outside.agreeing []).recovery (.oneHost default "root") "delete"
      (.pod ⟨"api-0", "prod", ""⟩) ()).events =
      [.deleted "prod" "api-0" (some (.ok ())), .watched "prod" "api-0" (some (.ok ⟨[], .closed⟩))] := rfl
  obtain ⟨hdelete, -, hother, -⟩ := recovery_asks (.agreeing []) (.oneHost default "root") ()
  have hsync := hother ⟨"api-1", "prod", ""⟩ "sync" (by decide) (by decide)
  refine ⟨hevents, ?_, hsync⟩
  rcases hdelete ⟨"api-0", "prod", ""⟩ with ⟨refused, -, hone, -⟩ | ⟨opened, htwo, hresult, -⟩
  · rw [hevents] at hone
    simp at hone
  · rw [hevents] at htwo
    simp only [List.cons.injEq, Event.watched.injEq, true_and, and_true] at htwo
    exact hresult.mpr ⟨⟨_, htwo.symm⟩, by decide⟩

/-- The deletion is accepted and the watch opens, but the clock cannot hold the end of the wait: the recovery is aborted
and is no success. -/
theorem recovery_not_granted :
    ∃ opened,
      ((Outside.agreeing []).recovery { Setup.oneHost default "root" with watchTimeout := .ofSeconds 9223372036854775808 }
          "delete" (.pod ⟨"api-0", "prod", ""⟩) ()).events =
        [.deleted "prod" "api-0" (some (.ok ())), .watched "prod" "api-0" opened] ∧
      Granted opened ∧
      Task.run (recover ((Outside.agreeing []).context
          { Setup.oneHost default "root" with watchTimeout := .ofSeconds 9223372036854775808 })
        "delete" (.pod ⟨"api-0", "prod", ""⟩)) () =
          ⟨some none, (), [.deleted "prod" "api-0" (some (.ok ())), .watched "prod" "api-0" opened]⟩ :=
  ⟨some (.ok ⟨[], .closed⟩), rfl, ⟨_, rfl⟩, rfl⟩

end Recovery

end SelfHealing
