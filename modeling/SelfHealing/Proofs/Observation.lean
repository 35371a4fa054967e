import SelfHealing.Recovery.Pass

/-!
Work as it is seen from outside. Whatever it asks for is noted together with the answer, and the answers may be any
at all: they come from a world of any kind, which may remember everything and change with every question.
-/

namespace SelfHealing.Observation

open Command Net Recovery Time Watch

structure CommandRun where
  route : Route
  target : Target
  text : String
  limit : Option Duration
  streamed : Bool
  lines : List String
  answer : Option (Except Error Output)

/-- Something asked of the outside; no answer at all may come. -/
inductive Event
  | listed (space : String) (answer : Option (Except Error (List PodSummary)))
  | fetched (space name : String) (answer : Option (Except Error Pod))
  | replaced (space name : String) (pod : Pod) (answer : Option (Except Error Pod))
  | deleted (space name : String) (answer : Option (Except Error Unit))
  | watched (space name : String) (answer : Option (Except Error (Script PodItem)))
  | ran (run : CommandRun)
  | pinged (target : Target) (answer : Option (Except Error Unit))

def settled {α : Type} (answer : Option (Except Error α)) : Option (Except Error Unit) :=
  answer.map (Except.map fun _ ↦ ())

/-- How some work went: its result unless it waits for ever, the world that it leaves, and what it asked. -/
structure Course (W α : Type) where
  result : Option α
  world : W
  events : List Event

namespace Course

variable {W α β : Type}

def after (events : List Event) (c : Course W α) : Course W α :=
  { c with events := events ++ c.events }

@[simp] theorem after_result (events : List Event) (c : Course W α) : (c.after events).result = c.result := rfl

@[simp] theorem after_events (events : List Event) (c : Course W α) :
    (c.after events).events = events ++ c.events := rfl

@[simp] theorem after_nil (c : Course W α) : c.after [] = c := rfl

theorem after_after (front back : List Event) (c : Course W α) :
    (c.after back).after front = c.after (front ++ back) := by
  simp only [after, List.append_assoc]

def followed (c : Course W α) (next : α → W → Course W β) : Course W β :=
  match c.result with
  | some a => (next a c.world).after c.events
  | none => ⟨none, c.world, c.events⟩

def andThen (c : Course W (Except Error α)) (next : α → W → Course W (Except Error β)) :
    Course W (Except Error β) :=
  match c.result with
  | some (.ok a) => (next a c.world).after c.events
  | some (.error e) => ⟨some (.error e), c.world, c.events⟩
  | none => ⟨none, c.world, c.events⟩

def explain (f : Error → Error) (c : Course W (Except Error α)) : Course W (Except Error α) :=
  { c with result := c.result.map (Except.mapError f) }

@[simp] theorem andThen_ok (w : W) (events : List Event) (a : α)
    (next : α → W → Course W (Except Error β)) :
    (⟨some (.ok a), w, events⟩ : Course W (Except Error α)).andThen next = (next a w).after events := rfl

@[simp] theorem andThen_error (w : W) (events : List Event) (e : Error)
    (next : α → W → Course W (Except Error β)) :
    (⟨some (.error e), w, events⟩ : Course W (Except Error α)).andThen next = ⟨some (.error e), w, events⟩ := rfl

@[simp] theorem andThen_none (w : W) (events : List Event) (next : α → W → Course W (Except Error β)) :
    (⟨none, w, events⟩ : Course W (Except Error α)).andThen next = ⟨none, w, events⟩ := rfl

@[simp] theorem explain_ok (f : Error → Error) (w : W) (events : List Event) (a : α) :
    (⟨some (.ok a), w, events⟩ : Course W (Except Error α)).explain f = ⟨some (.ok a), w, events⟩ := rfl

@[simp] theorem explain_error (f : Error → Error) (w : W) (events : List Event) (e : Error) :
    (⟨some (.error e), w, events⟩ : Course W (Except Error α)).explain f = ⟨some (.error (f e)), w, events⟩ := rfl

@[simp] theorem explain_none (f : Error → Error) (w : W) (events : List Event) :
    (⟨none, w, events⟩ : Course W (Except Error α)).explain f = ⟨none, w, events⟩ := rfl

theorem after_andThen (events : List Event) (c : Course W (Except Error α))
    (next : α → W → Course W (Except Error β)) :
    (c.after events).andThen next = (c.andThen next).after events := by
  rcases c with ⟨_ | e | a, w, es⟩
  · rfl
  · rfl
  · exact (after_after events es (next a w)).symm

theorem andThen_assoc {γ : Type} (c : Course W (Except Error α)) (f : α → W → Course W (Except Error β))
    (g : β → W → Course W (Except Error γ)) :
    (c.andThen f).andThen g = c.andThen fun a w ↦ (f a w).andThen g := by
  rcases c with ⟨_ | e | a, w, es⟩
  · rfl
  · rfl
  · exact after_andThen es (f a w) g

theorem explain_andThen (f : Error → Error) (c : Course W (Except Error α))
    (next : α → W → Course W (Except Error β)) :
    (c.andThen next).explain f = (c.explain f).andThen fun a w ↦ (next a w).explain f := by
  rcases c with ⟨_ | e | a, w, es⟩ <;> rfl

theorem after_followed (events : List Event) (c : Course W α) (next : α → W → Course W β) :
    (c.after events).followed next = (c.followed next).after events := by
  rcases c with ⟨_ | a, w, es⟩
  · rfl
  · exact (after_after events es (next a w)).symm

theorem followed_followed {γ : Type} (c : Course W α) (f : α → W → Course W β) (g : β → W → Course W γ) :
    (c.followed f).followed g = c.followed fun a w ↦ (f a w).followed g := by
  rcases c with ⟨_ | a, w, es⟩
  · rfl
  · exact after_followed es (f a w) g

end Course

def Observed (W α : Type) : Type := W → Course W α

namespace Observed

variable {W α : Type}

instance : Monad (Observed W) where
  pure a := fun w ↦ ⟨some a, w, []⟩
  bind x f := fun w ↦ (x w).followed f

instance : LawfulMonad (Observed W) := LawfulMonad.mk' (Observed W)
  (by
    intro α x
    funext w
    change (x w).followed _ = x w
    rcases x w with ⟨_ | a, v, es⟩
    · rfl
    · exact congrArg (Course.mk _ v) (List.append_nil es))
  (by intro α β a f; rfl)
  (by
    intro α β γ x f g
    funext w
    exact Course.followed_followed (x w) f g)

def ask (event : Option α → Event) (answer : W → Option α × W) : Observed W α := fun w ↦
  ⟨(answer w).1, (answer w).2, [event (answer w).1]⟩

def quietly (f : W → α × W) : Observed W α := fun w ↦ ⟨some (f w).1, (f w).2, []⟩

end Observed

/-- The course of a task that begins in a world. -/
def perform {W α : Type} (x : Task (Observed W) α) (w : W) : Course W (Except Error α) :=
  { result := (Task.run x w).result.join
    world := (Task.run x w).world
    events := (Task.run x w).events }

section Perform

variable {W α β : Type}

@[simp] theorem perform_pure (a : α) (w : W) :
    perform (pure a : Task (Observed W) α) w = ⟨some (.ok a), w, []⟩ := rfl

@[simp] theorem perform_throw (e : Error) (w : W) :
    perform (throw e : Task (Observed W) α) w = ⟨some (.error e), w, []⟩ := rfl

@[simp] theorem perform_ofExcept (x : Except Error α) (w : W) :
    perform (Task.ofExcept x : Task (Observed W) α) w = ⟨some x, w, []⟩ := by
  cases x <;> rfl

/-- What a bind does with the result of the first task. -/
theorem run_bind (x : Task (Observed W) α) (f : α → Task (Observed W) β) (w : W) :
    Task.run (x >>= f) w = (Task.run x w).followed fun r v ↦
      match r with
      | some (.ok a) => Task.run (f a) v
      | some (.error e) => ⟨some (some (.error e)), v, []⟩
      | none => ⟨some none, v, []⟩ := by
  change ((Task.run x w).followed fun r ↦ _) = _
  congr 1
  funext r
  rcases r with _ | _ | _ <;> rfl

theorem perform_bind (x : Task (Observed W) α) (f : α → Task (Observed W) β) (w : W) :
    perform (x >>= f) w = (perform x w).andThen fun a v ↦ perform (f a) v := by
  unfold perform
  rw [run_bind]
  rcases Task.run x w with ⟨_ | _ | e | a, v, es⟩
  · rfl
  · exact congrArg (Course.mk _ v) (List.append_nil es)
  · exact congrArg (Course.mk _ v) (List.append_nil es)
  · rfl

theorem perform_call (x : Observed W (Except Error α)) (w : W) : perform (Task.call x) w = x w := by
  have h : Task.run (Task.call x) w = (x w).followed fun r v ↦ ⟨some (some r), v, []⟩ := rfl
  unfold perform
  rw [h]
  rcases x w with ⟨_ | r, v, es⟩
  · rfl
  · exact congrArg (Course.mk _ v) (List.append_nil es)

theorem perform_ask (event : Option (Except Error α) → Event) (answer : W → Option (Except Error α) × W) (w : W) :
    perform (Task.call (.ask event answer)) w = ⟨(answer w).1, (answer w).2, [event (answer w).1]⟩ :=
  perform_call _ w

theorem perform_lift (x : Observed W α) (w : W) :
    perform (Task.lift x) w = (x w).followed fun a v ↦ ⟨some (.ok a), v, []⟩ := by
  have h : Task.run (Task.lift x) w =
      ((x w).followed fun a v ↦ ⟨some (some a), v, []⟩).followed fun r v ↦ ⟨some (r.map .ok), v, []⟩ := by
    change (((x w).followed fun a v ↦ _).followed fun r ↦ _) = _
    congr 1
    funext r
    rcases r with _ | _ <;> rfl
  unfold perform
  rw [h]
  rcases x w with ⟨_ | a, v, es⟩
  · rfl
  · exact congrArg (Course.mk _ v) (List.append_nil _)

theorem perform_quietly (f : W → α × W) (w : W) :
    perform (Task.lift (.quietly f)) w = ⟨some (.ok (f w).1), (f w).2, []⟩ := by
  rw [perform_lift]
  rfl

theorem perform_explain (f : Error → Error) (x : Task (Observed W) α) (w : W) :
    perform (x.explain f) w = (perform x w).explain f := by
  have h : Task.run (x.explain f) w =
      (Task.run x w).followed fun r v ↦ ⟨some (r.map (Except.mapError f)), v, []⟩ := by
    change ((Task.run x w).followed fun r ↦ _) = _
    congr 1
    funext r
    rcases r with _ | _ | _ <;> rfl
  unfold perform
  rw [h]
  rcases Task.run x w with ⟨_ | r, v, es⟩
  · rfl
  · exact congrArg (Course.mk _ v) (List.append_nil es)

end Perform

end SelfHealing.Observation
