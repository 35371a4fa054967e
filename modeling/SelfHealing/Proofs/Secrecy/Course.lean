import SelfHealing.Proofs.Outside
import SelfHealing.Proofs.Secrecy.Registry

/-!
Work in two worlds side by side. Two outsides resemble each other that answer the same, in related worlds, to what
differs in no more than the secrets of a target. Main statement: work that is made up of such questions asks what
resembles each other, in the same order, and comes to the same.
-/

namespace SelfHealing.Observation

open Command Net Recovery Time Watch

structure CommandRun.Resembles (run run' : CommandRun) : Prop where
  route : run.route = run'.route
  target : run.target.Resembles run'.target
  text : run.text = run'.text
  limit : run.limit = run'.limit
  streamed : run.streamed = run'.streamed
  lines : run.lines = run'.lines
  answer : run.answer = run'.answer

inductive Event.Resembles : Event → Event → Prop
  | same (event : Event) : Resembles event event
  | ran {run run' : CommandRun} (h : run.Resembles run') : Resembles (.ran run) (.ran run')
  | pinged {t t' : Target} (h : t.Resembles t') (answer : Option (Except Error Unit)) :
      Resembles (.pinged t answer) (.pinged t' answer)

theorem CommandRun.Resembles.verdict {run run' : CommandRun} (h : run.Resembles run') :
    run.verdict = run'.verdict := by
  simp only [CommandRun.verdict, h.answer, h.target.host, h.text]

section Worlds

variable {W W' α β : Type} {R : W → W' → Prop}

/-- The same is answered in related worlds, and related worlds are left. -/
def Matching (R : W → W' → Prop) (f : W → α × W) (f' : W' → α × W') : Prop :=
  ∀ w w', R w w' → (f w).1 = (f' w').1 ∧ R (f w).2 (f' w').2

structure Outside.Resembles (R : W → W' → Prop) (o : Outside W) (o' : Outside W') : Prop where
  listPods : ∀ space, Matching R (o.listPods space) (o'.listPods space)
  getPod : ∀ space name, Matching R (o.getPod space name) (o'.getPod space name)
  replacePod : ∀ space name pod, Matching R (o.replacePod space name pod) (o'.replacePod space name pod)
  deletePod : ∀ space name, Matching R (o.deletePod space name) (o'.deletePod space name)
  watchPod : ∀ space name, Matching R (o.watchPod space name) (o'.watchPod space name)
  command : ∀ route t t' text limit streamed, t.Resembles t' →
    Matching R (o.command route t text limit streamed) (o'.command route t' text limit streamed)
  ping : ∀ t t', t.Resembles t' → Matching R (o.ping t) (o'.ping t')
  display : ∀ host line w w', R w w' → R (o.display host line w) (o'.display host line w')
  now : Matching R o.now o'.now
  pass : ∀ d w w', R w w' → R (o.pass d w) (o'.pass d w')
  date : Matching R o.date o'.date

/-- Only the secrets of the registry may differ. -/
structure Setup.Resembles (s s' : Setup) : Prop where
  registry : s.registry.Resembles s'.registry
  own : s.own = s'.own
  options : s.options = s'.options
  watchTimeout : s.watchTimeout = s'.watchTimeout

structure Course.Resembles (R : W → W' → Prop) (c : Course W α) (c' : Course W' α) : Prop where
  result : c.result = c'.result
  world : R c.world c'.world
  events : List.Forall₂ Event.Resembles c.events c'.events

namespace Course.Resembles

variable {c : Course W (Except Error α)} {c' : Course W' (Except Error α)}

theorem after {d : Course W α} {d' : Course W' α} (h : d.Resembles R d') {events events' : List Event}
    (he : List.Forall₂ Event.Resembles events events') : (d.after events).Resembles R (d'.after events') :=
  ⟨h.result, h.world, List.rel_append he h.events⟩

theorem andThen (h : c.Resembles R c') {next : α → W → Course W (Except Error β)}
    {next' : α → W' → Course W' (Except Error β)}
    (hnext : ∀ a w w', R w w' → (next a w).Resembles R (next' a w')) :
    (c.andThen next).Resembles R (c'.andThen next') := by
  obtain ⟨result, w, events⟩ := c
  obtain ⟨result', w', events'⟩ := c'
  obtain rfl : result = result' := h.result
  rcases result with _ | e | a
  · exact ⟨rfl, h.world, h.events⟩
  · exact ⟨rfl, h.world, h.events⟩
  · exact (hnext a w w' h.world).after h.events

theorem explain (h : c.Resembles R c') (f : Error → Error) : (c.explain f).Resembles R (c'.explain f) :=
  ⟨congrArg (Option.map (Except.mapError f)) h.result, h.world, h.events⟩

end Course.Resembles

def Parallels (R : W → W' → Prop) (x : Task (Observed W) α) (x' : Task (Observed W') α) : Prop :=
  ∀ w w', R w w' → (perform x w).Resembles R (perform x' w')

theorem Parallels.bind {x : Task (Observed W) α} {x' : Task (Observed W') α} {f : α → Task (Observed W) β}
    {f' : α → Task (Observed W') β} (hx : Parallels R x x') (hf : ∀ a, Parallels R (f a) (f' a)) :
    Parallels R (x >>= f) (x' >>= f') := by
  intro w w' hw
  rw [perform_bind, perform_bind]
  exact (hx w w' hw).andThen hf

theorem Parallels.explain {x : Task (Observed W) α} {x' : Task (Observed W') α} (hx : Parallels R x x')
    (f : Error → Error) : Parallels R (x.explain f) (x'.explain f) := by
  intro w w' hw
  rw [perform_explain, perform_explain]
  exact (hx w w' hw).explain f

theorem parallels_ofExcept (x : Except Error α) :
    Parallels R (Task.ofExcept x : Task (Observed W) α) (Task.ofExcept x : Task (Observed W') α) := by
  intro w w' hw
  rw [perform_ofExcept, perform_ofExcept]
  exact ⟨rfl, hw, .nil⟩

theorem parallels_pure (a : α) :
    Parallels R (pure a : Task (Observed W) α) (pure a : Task (Observed W') α) :=
  parallels_ofExcept (.ok a)

theorem parallels_throw (e : Error) :
    Parallels R (throw e : Task (Observed W) α) (throw e : Task (Observed W') α) :=
  parallels_ofExcept (.error e)

theorem parallels_abort : Parallels R (Task.abort : Task (Observed W) α) (Task.abort : Task (Observed W') α) :=
  fun _ _ hw ↦ ⟨rfl, hw, .nil⟩

theorem parallels_ask {event event' : Option (Except Error α) → Event} {f : W → Option (Except Error α) × W}
    {f' : W' → Option (Except Error α) × W'} (hf : Matching R f f')
    (he : ∀ answer, (event answer).Resembles (event' answer)) :
    Parallels R (Task.call (.ask event f)) (Task.call (.ask event' f')) := by
  intro w w' hw
  obtain ⟨hanswer, hleft⟩ := hf w w' hw
  rw [perform_ask, perform_ask, hanswer]
  exact ⟨rfl, hleft, .cons (he _) .nil⟩

theorem parallels_quietly {f : W → α × W} {f' : W' → α × W'} (hf : Matching R f f') :
    Parallels R (Task.lift (.quietly f)) (Task.lift (.quietly f')) := by
  intro w w' hw
  obtain ⟨hvalue, hleft⟩ := hf w w' hw
  rw [perform_quietly, perform_quietly, hvalue]
  exact ⟨rfl, hleft, .nil⟩

end Worlds

end SelfHealing.Observation
