import Mathlib.Logic.Function.Basic
import SelfHealing.Proofs.Outside
import SelfHealing.Simulation.Cluster

/-!
Outsides that are stores of pods. A store holds pods under keys: a pod that is fetched is the one held, and a pod that
is accepted for another of its name is held from then on. Main statement: the cluster in memory is a store.
-/

namespace SelfHealing

open Observation Time

/-- What makes an outside a store of pods. Fetching a pod and reading the date change nothing, a replacement that is
refused changes nothing, and one that is never answered has been carried out or not. -/
structure Observation.Store {W : Type} (o : Outside W) (K : Type) [DecidableEq K] where
  key (space name : String) : K
  held (w : W) : K → Option Pod
  held_of_fetched {space name : String} {w : W} {pod : Pod} :
    (o.getPod space name w).1 = some (.ok pod) → held w (key space name) = some pod
  held_getPod (space name : String) (w : W) : held (o.getPod space name w).2 = held w
  held_date (w : W) : held (o.date w).2 = held w
  held_of_accepted {space name : String} {w : W} {old pod stored : Pod} :
    held w (key space name) = some old → pod.name = old.name → pod.space = old.space →
    (o.replacePod space name pod w).1 = some (.ok stored) →
    held (o.replacePod space name pod w).2 = Function.update (held w) (key space name) (some pod)
  held_of_refused {space name : String} {w : W} {pod : Pod} {e : Error} :
    (o.replacePod space name pod w).1 = some (.error e) → held (o.replacePod space name pod w).2 = held w
  held_of_unanswered {space name : String} {w : W} {old pod : Pod} :
    held w (key space name) = some old → pod.name = old.name → pod.space = old.space →
    (o.replacePod space name pod w).1 = none →
    held (o.replacePod space name pod w).2 = held w ∨
      held (o.replacePod space name pod w).2 = Function.update (held w) (key space name) (some pod)

namespace Simulation.PodStore

section ReplaceFirst

variable {p q : Pod → Bool} {new : Pod}

theorem find?_replaceFirst_self {pods : List Pod} {old : Pod} (hold : pods.find? p = some old) (hnew : p new) :
    (replaceFirst p new pods).find? p = some new := by
  fun_induction replaceFirst p new pods with
  | case1 => simp at hold
  | case2 first rest hfirst => exact List.find?_cons_of_pos hnew
  | case3 first rest hfirst ih =>
    rw [List.find?_cons_of_neg hfirst] at hold ⊢
    exact ih hold

theorem find?_replaceFirst_other (hnew : ¬q new) (hother : ∀ pod, p pod → ¬q pod) (pods : List Pod) :
    (replaceFirst p new pods).find? q = pods.find? q := by
  fun_induction replaceFirst p new pods with
  | case1 => rfl
  | case2 first rest hfirst =>
    rw [List.find?_cons_of_neg hnew, List.find?_cons_of_neg (hother first hfirst)]
  | case3 first rest hfirst ih => rw [List.find?_cons, List.find?_cons, ih]

end ReplaceFirst

def key (space name : String) : String × String := (if space.isEmpty then defaultSpace else space, name)

def held (s : PodStore) (k : String × String) : Option Pod :=
  s.pods.find? fun p ↦ p.name = some k.2 && p.space = some k.1

def answer {α : Type} (call : StateM PodStore (Except Error α)) (s : PodStore) : Option (Except Error α) × PodStore :=
  (some (call s).1, (call s).2)

def outside : Outside PodStore where
  listPods space := answer (listPods space)
  getPod space name := answer (getPod space name)
  replacePod space name pod := answer (replacePod space name pod)
  deletePod space name := answer (deletePod space name)
  watchPod space name := answer (watchPod space name)
  command _ _ _ _ _ := fun s ↦ (([], some (.ok ⟨0, ""⟩)), s)
  ping _ := fun s ↦ (some (.ok ()), s)
  display _ _ := id
  now := fun s ↦ (⟨s.calls.length * 1000000000⟩, s)
  pass _ := id
  date := fun s ↦ (⟨s.calls.length, 0⟩, s)

def noted (c : Call) (s : PodStore) : PodStore := { s with calls := s.calls ++ [c] }

theorem find_noted (c : Call) (s : PodStore) :
    (noted c s).find c = (s.held (key c.space c.name)).elim (.error (missing c)) .ok := by
  have hfound : (noted c s).pods.find? (holds c.space c.name) = s.held (key c.space c.name) := rfl
  unfold find
  rw [hfound]
  cases s.held (key c.space c.name) <;> rfl

/-- A call on one pod is refused with no more than a note of it, or else it finds the pod and is carried out. -/
theorem serve_cases {α : Type} (c : Call) (carry : Pod → PodStore → α × PodStore) (s : PodStore) :
    (∃ e, serve c (fun s ↦ do return carry (← s.find c) s) s = (.error e, noted c s)) ∨
      ∃ pod, s.held (key c.space c.name) = some pod ∧
        serve c (fun s ↦ do return carry (← s.find c) s) s =
          (.ok (carry pod (noted c s)).1, (carry pod (noted c s)).2) := by
  have hnoted : { s with calls := s.calls ++ [c] } = noted c s := rfl
  unfold serve
  simp only [hnoted, find_noted]
  cases (noted c s).refusal? c with
  | some e => exact .inl ⟨e, rfl⟩
  | none =>
    cases s.held (key c.space c.name) with
    | none => exact .inl ⟨missing c, rfl⟩
    | some pod => exact .inr ⟨pod, rfl, rfl⟩

theorem getPod_cases (space name : String) (s : PodStore) :
    (∃ e, getPod space name s = (.error e, noted ⟨.get, space, name⟩ s)) ∨
      ∃ pod, s.held (key space name) = some pod ∧ getPod space name s = (.ok pod, noted ⟨.get, space, name⟩ s) :=
  serve_cases ⟨.get, space, name⟩ (fun pod s ↦ (pod, s)) s

theorem replacePod_cases (space name : String) (new : Pod) (s : PodStore) :
    (∃ e, replacePod space name new s = (.error e, noted ⟨.update, space, name⟩ s)) ∨
      ∃ old, s.held (key space name) = some old ∧
        replacePod space name new s =
          (.ok new, { noted ⟨.update, space, name⟩ s with pods := replaceFirst (holds space name) new s.pods }) :=
  serve_cases ⟨.update, space, name⟩
    (fun _ s ↦ (new, { s with pods := replaceFirst (holds space name) new s.pods })) s

theorem held_replaceFirst {space name : String} {old new : Pod} {s t : PodStore}
    (hold : s.held (key space name) = some old) (hname : new.name = old.name) (hspace : new.space = old.space)
    (ht : t.pods = replaceFirst (holds space name) new s.pods) :
    t.held = Function.update s.held (key space name) (some new) := by
  have hfound : holds space name old := List.find?_some hold
  have hnew : holds space name new := by rw [holds, hname, hspace]; exact hfound
  funext k
  by_cases hk : k = key space name
  · rw [hk, Function.update_self, held, ht]
    exact find?_replaceFirst_self hold hnew
  · rw [Function.update_of_ne hk, held, ht]
    have hother (pod : Pod) (hpod : holds space name pod) : ¬(pod.name = some k.2 && pod.space = some k.1) := by
      intro hboth
      simp only [holds, Bool.and_eq_true, decide_eq_true_eq] at hpod hboth
      exact hk (Prod.ext (Option.some.inj (hboth.2.symm.trans hpod.2)) (Option.some.inj (hboth.1.symm.trans hpod.1)))
    exact find?_replaceFirst_other (hother new hnew) hother s.pods

def store : Store outside (String × String) where
  key := key
  held := held
  held_of_fetched {space name s pod} h := by
    obtain ⟨e, hget⟩ | ⟨found, hfound, hget⟩ := getPod_cases space name s
    · simp [outside, answer, hget] at h
    · obtain rfl : found = pod := by simpa [outside, answer, hget] using h
      exact hfound
  held_getPod space name s := by
    obtain ⟨e, hget⟩ | ⟨found, hfound, hget⟩ := getPod_cases space name s <;> simp only [outside, answer, hget] <;> rfl
  held_date s := rfl
  held_of_accepted {space name s old pod stored} hold hname hspace h := by
    obtain ⟨e, hput⟩ | ⟨found, -, hput⟩ := replacePod_cases space name pod s
    · simp [outside, answer, hput] at h
    · exact held_replaceFirst hold hname hspace (by simp only [outside, answer, hput])
  held_of_refused {space name s pod e} h := by
    obtain ⟨e', hput⟩ | ⟨found, -, hput⟩ := replacePod_cases space name pod s
    · simp only [outside, answer, hput]
      rfl
    · simp [outside, answer, hput] at h
  held_of_unanswered _ _ _ h := by cases h

end Simulation.PodStore

end SelfHealing
