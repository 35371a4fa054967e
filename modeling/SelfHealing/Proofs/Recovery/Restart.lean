import SelfHealing.Proofs.Cluster.Store
import SelfHealing.Proofs.Kubernetes.Object
import SelfHealing.Proofs.Lookup
import SelfHealing.Proofs.Recovery.Order
import SelfHealing.Proofs.Recovery.Remedy

/-!
What the restart of a pod changes in a store of pods. Main statement: it sets two annotations of the pod, or else
nothing at all, and restarting the pod again adds no further names.
-/

namespace SelfHealing.Recovery

open Kubernetes Labels Observation Time

def restartMarks (date : Timestamp) (labels : Labels) : Labels :=
  setLabel restartedBy systemName (setLabel restartedAt date.rfc3339 labels)

theorem markRestarted_eq (date : Timestamp) (pod : Pod) :
    markRestarted date pod = { pod with annotations := some (restartMarks date (pod.annotations.getD [])) } := rfl

theorem lookup_restartMarks (date : Timestamp) (labels : Labels) (name : String) :
    (restartMarks date labels).lookup name =
      if name = restartedAt then some date.rfc3339
      else if name = restartedBy then some systemName
      else labels.lookup name := by
  rw [restartMarks, lookup_setLabel, lookup_setLabel]
  by_cases hat : name = restartedAt
  · have hby : name ≠ restartedBy := by rw [hat]; decide
    rw [if_neg hby, if_pos hat, if_pos hat]
  · rw [if_neg hat, if_neg hat]

theorem ordered_restartMarks {labels : Labels} (h : Ordered labels) (date : Timestamp) :
    Ordered (restartMarks date labels) :=
  ordered_setLabel (ordered_setLabel h ..) ..

theorem restartMarks_comm (date : Timestamp) (labels : Labels) :
    restartMarks date labels = setLabel restartedAt date.rfc3339 (setLabel restartedBy systemName labels) :=
  (setLabel_comm (by decide) ..).symm

theorem restartMarks_restartMarks (date later : Timestamp) (labels : Labels) :
    restartMarks later (restartMarks date labels) = restartMarks later labels := by
  rw [restartMarks_comm date, restartMarks, setLabel_setLabel, ← restartMarks, restartMarks_comm, setLabel_setLabel,
    ← restartMarks_comm]

theorem names_restartMarks (date later : Timestamp) (labels : Labels) :
    names (restartMarks date labels) = names (restartMarks later labels) := by
  rw [restartMarks_comm, restartMarks_comm later]
  exact names_setLabel ..

section Store

variable {W K : Type} [DecidableEq K] {o : Outside W} (store : Store o K) (s : Setup)

def marked (pods : K → Option Pod) (k : K) (date : Timestamp) : K → Option Pod :=
  Function.update pods k ((pods k).map (markRestarted date))

theorem marked_marked (pods : K → Option Pod) (k : K) (date later : Timestamp) :
    marked (marked pods k date) k later = marked pods k later := by
  unfold marked
  rw [Function.update_self, Function.update_idem, Option.map_map]
  congr 2
  funext pod
  rw [Function.comp_apply, markRestarted_eq, markRestarted_eq, Option.getD_some, restartMarks_restartMarks]
  rfl

/-- A restart is carried out, or it changes nothing; only one that never ends may still have marked the pod. -/
theorem restart_cases (p : PodAnomaly) (w : W) :
    (∃ pod stored,
      store.held w (store.key p.space p.name) = some pod ∧
      (o.recovery s "restart" (.pod p) w).result = some (.ok ()) ∧
      (o.recovery s "restart" (.pod p) w).events =
        [.fetched p.space p.name (some (.ok pod)),
          .replaced p.space p.name (markRestarted (o.date (o.getPod p.space p.name w).2).1 pod) (some (.ok stored))] ∧
      store.held (o.recovery s "restart" (.pod p) w).world =
        marked (store.held w) (store.key p.space p.name) (o.date (o.getPod p.space p.name w).2).1) ∨
    ((o.recovery s "restart" (.pod p) w).result ≠ some (.ok ()) ∧
      store.held (o.recovery s "restart" (.pod p) w).world = store.held w) ∨
    ((o.recovery s "restart" (.pod p) w).result = none ∧
      ∃ date, store.held (o.recovery s "restart" (.pod p) w).world =
        marked (store.held w) (store.key p.space p.name) date) := by
  have hcourse : o.recovery s "restart" (.pod p) w =
      (perform (restartPod (o.context s) p) w).explain (.restartFailed p.space p.name) := perform_explain _ _ w
  have hstill := store.held_getPod p.space p.name w
  have hfetched := @store.held_of_fetched p.space p.name w
  rw [hcourse, restartPod_course]
  generalize o.getPod p.space p.name w = found at hstill hfetched ⊢
  rcases found with ⟨_ | e | pod, v⟩
  · exact .inr (.inl ⟨nofun, hstill⟩)
  · exact .inr (.inl ⟨nofun, hstill⟩)
  · have hpod : store.held w (store.key p.space p.name) = some pod := hfetched rfl
    have hdated : store.held (o.date v).2 = store.held w := (store.held_date v).trans hstill
    have hold : store.held (o.date v).2 (store.key p.space p.name) = some pod := by rw [hdated, hpod]
    have hmarked : marked (store.held w) (store.key p.space p.name) (o.date v).1 =
        Function.update (store.held (o.date v).2) (store.key p.space p.name)
          (some (markRestarted (o.date v).1 pod)) := by
      rw [marked, hpod, hdated, Option.map_some]
    have haccepted := fun stored ↦ @store.held_of_accepted p.space p.name (o.date v).2 pod
      (markRestarted (o.date v).1 pod) stored hold rfl rfl
    have hrefused := fun e ↦ @store.held_of_refused p.space p.name (o.date v).2 (markRestarted (o.date v).1 pod) e
    have hunanswered := @store.held_of_unanswered p.space p.name (o.date v).2 pod
      (markRestarted (o.date v).1 pod) hold rfl rfl
    generalize hput : o.replacePod p.space p.name (markRestarted (o.date v).1 pod) (o.date v).2 = put
      at haccepted hrefused hunanswered
    simp only [hput]
    rcases put with ⟨_ | e | stored, u⟩
    · -- Nothing is known of a replacement that is never answered, and the restart never ends.
      obtain hsame | hput := hunanswered rfl
      · exact .inr (.inl ⟨nofun, hsame.trans hdated⟩)
      · exact .inr (.inr ⟨rfl, _, hput.trans hmarked.symm⟩)
    · exact .inr (.inl ⟨nofun, (hrefused e rfl).trans hdated⟩)
    · exact .inl ⟨pod, stored, hpod, rfl, rfl, (haccepted stored rfl).trans hmarked.symm⟩

theorem restart_marked {pods : K → Option Pod} {q : PodAnomaly} {v : W}
    (h : ∃ date, store.held v = marked pods (store.key q.space q.name) date) :
    ∃ date, store.held (o.recovery s "restart" (.pod q) v).world = marked pods (store.key q.space q.name) date := by
  obtain ⟨date, hdate⟩ := h
  rcases restart_cases store s q v with ⟨pod, stored, -, -, -, hput⟩ | ⟨-, hsame⟩ | ⟨-, later, hput⟩
  · exact ⟨_, by rw [hput, hdate, marked_marked]⟩
  · exact ⟨date, hsame.trans hdate⟩
  · exact ⟨later, by rw [hput, hdate, marked_marked]⟩

theorem rounds_marked {pods : K → Option Pod} {k : K} (rule : String) {again : List PodAnomaly}
    (hagain : ∀ q ∈ again, store.key q.space q.name = k) {v : W} (h : ∃ date, store.held v = marked pods k date) :
    ∀ later ∈ rounds (o.context s) v (again.map fun q ↦ .recover rule "restart" (.pod q)),
      ∃ date, store.held later.world = marked pods k date := by
  induction again generalizing v with
  | nil => simp [rounds]
  | cons q rest ih =>
    obtain ⟨rfl, hrest⟩ := List.forall_mem_cons.mp hagain
    -- Whatever the restart came to, the rest begins with a store that is marked once.
    have hnext := restart_marked store s h
    intro later hlater
    obtain rfl | hlater := List.mem_cons.mp hlater
    · exact hnext
    · exact ih hrest hnext later hlater

end Store

open Simulation

def payPod : Pod :=
  ⟨some "api-0", some "prod", some "node-1", none, some [("kubectl.kubernetes.io/restartedBy", "ops"), ("team", "pay")],
    some "7", ⟨[(.name "labels", .named [("app", .string "api")])], some [], none⟩⟩

def twoPods : PodStore where
  pods := [payPod, ⟨some "api-1", some "prod", none, none, none, some "8", .empty⟩]
  refusals := [⟨.update, some "api-1", "conflict"⟩]
  stories := []
  calls := []

end SelfHealing.Recovery
