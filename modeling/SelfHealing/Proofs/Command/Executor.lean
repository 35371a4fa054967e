import SelfHealing.Command.Executor

/-!
The choices of an executor, in any monad: where a command goes, whether its lines are shown, which commands are run at
all, and what decides on them.
-/

namespace SelfHealing.Command

open Net

def verdict (t : Target) (text : String) (output : Output) : Except Error String :=
  if output.status = 0 then .ok output.text else .error (.commandFailed t.host text output.status output.text)

namespace Executor

variable {m : Type → Type} {e : Executor m} {host : Address}

theorem route_of_mem (h : host ∈ e.own) : e.route host = .here := if_pos (decide_eq_true h)

theorem route_of_not_mem (h : host ∉ e.own) : e.route host = .there := if_neg (mt of_decide_eq_true h)

theorem lacks_text_iff {text : String} :
    (text.isEmpty && decide (e.route host = .there)) = true ↔ text = "" ∧ host ∉ e.own := by
  by_cases h : host ∈ e.own
  · simp [route_of_mem h, h]
  · simp [route_of_not_mem h, h]

def sink? (e : Executor m) : Option (Sink m) := if e.options.streamOutput then some e.sink else none

theorem isSome_sink? : e.sink?.isSome = e.options.streamOutput := by
  unfold sink?
  cases e.options.streamOutput <;> rfl

theorem eq_sink_of_mem {f : Sink m} (h : f ∈ e.sink?) : f = e.sink := by
  unfold sink? at h
  cases hb : e.options.streamOutput
  · simp [hb] at h
  · simpa [hb, eq_comm] using h

theorem run_eq [Monad m] [LawfulMonad m] (e : Executor m) (t : Target) (command : String) :
    e.run t command = (do
      let output ← Task.call (e.runner t.host t (t.credential.prepare command) e.options.commandTimeout e.sink?)
      Task.ofExcept (verdict t (t.credential.prepare command) output)) := by
  have hjudged (output : Output) :
      (do
        if output.status ≠ 0 then
          throw (.commandFailed t.host (t.credential.prepare command) output.status output.text)
        return output.text : Task m String) = Task.ofExcept (verdict t (t.credential.prepare command) output) := by
    by_cases hz : output.status = 0
    · simp [verdict, hz, Task.ofExcept]
    · simp [verdict, hz, Task.ofExcept]
  simp only [run, sink?, ← hjudged]

theorem runEach_cons [Monad m] (e : Executor m) (t : Target) (command : String) (rest : List String) :
    e.runEach t (command :: rest) =
      if command = "" then e.runEach t rest else (do let _ ← e.run t command; e.runEach t rest) := by
  by_cases hc : command = ""
  · subst hc
    rw [if_pos rfl, Executor.runEach]
    rfl
  · have hne : (!command.isEmpty) = true := by simpa using hc
    rw [if_neg hc, Executor.runEach]
    simp only [hne, if_true]

end Executor

end SelfHealing.Command
