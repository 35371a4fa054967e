import SelfHealing.Proofs.Command.Executor
import SelfHealing.Proofs.Observation

/-!
The outside of a recovery pass: a cluster, a shell, other hosts, a clock and somebody who reads the lines shown. No
answer is ruled out. Main statement: a command that is run is handed over once, on the route of its host and in its
prepared form, and the answer decides on it.
-/

namespace SelfHealing.Observation

open Command Net Recovery Time Watch

structure Outside (W : Type) where
  listPods (space : String) : W → Option (Except Error (List PodSummary)) × W
  getPod (space name : String) : W → Option (Except Error Pod) × W
  replacePod (space name : String) (pod : Pod) : W → Option (Except Error Pod) × W
  deletePod (space name : String) : W → Option (Except Error Unit) × W
  watchPod (space name : String) : W → Option (Except Error (Script PodItem)) × W
  command (route : Route) (target : Target) (text : String) (limit : Option Duration) (streamed : Bool) :
    W → (List String × Option (Except Error Output)) × W
  ping (target : Target) : W → Option (Except Error Unit) × W
  display (host : Address) (line : String) : W → W
  now : W → Instant × W
  pass (d : Duration) : W → W
  date : W → Timestamp × W

structure Setup where
  registry : Registry
  own : List Address
  options : Options
  watchTimeout : Duration

def Setup.oneHost (host : Address) (user : String) : Setup where
  registry := ⟨[⟨[host], [], .empty, []⟩], { Credential.empty with user := user }⟩
  own := []
  options := .standard
  watchTimeout := standardWatchTimeout

/-- The verdict on a command: any status but zero is a failure. -/
def CommandRun.verdict (r : CommandRun) : Option (Except Error String) :=
  match r.answer with
  | none => none
  | some (.error e) => some (.error e)
  | some (.ok output) =>
    if output.status = 0 then some (.ok output.text)
    else some (.error (.commandFailed r.target.host r.text output.status output.text))

namespace Outside

def agreeing (pods : List PodSummary) : Outside Unit where
  listPods _ := fun w ↦ (some (.ok pods), w)
  getPod _ _ := fun w ↦ (some (.ok ⟨none, none, none, none, none, none, .empty⟩), w)
  replacePod _ _ pod := fun w ↦ (some (.ok pod), w)
  deletePod _ _ := fun w ↦ (some (.ok ()), w)
  watchPod _ _ := fun w ↦ (some (.ok ⟨[], .closed⟩), w)
  command _ _ _ _ _ := fun w ↦ (([], some (.ok ⟨0, ""⟩)), w)
  ping _ := fun w ↦ (some (.ok ()), w)
  display _ _ := id
  now := fun w ↦ (default, w)
  pass _ := id
  date := fun w ↦ (default, w)

variable {W : Type} (o : Outside W)

def cluster : Cluster (Observed W) where
  listPods space := .ask (.listed space) (o.listPods space)
  getPod space name := .ask (.fetched space name) (o.getPod space name)
  replacePod space name pod := .ask (.replaced space name pod) (o.replacePod space name pod)
  deletePod space name := .ask (.deleted space name) (o.deletePod space name)
  watchPod space name := .ask (.watched space name) (o.watchPod space name)

def commandRun (route : Route) (t : Target) (text : String) (limit : Option Duration) (streamed : Bool)
    (w : W) : CommandRun :=
  let (lines, answer) := (o.command route t text limit streamed w).1
  ⟨route, t, text, limit, streamed, lines, answer⟩

def handOver (route : Route) (t : Target) (text : String) (limit : Option Duration) (streamed : Bool) :
    Observed W CommandRun := fun w ↦
  ⟨some (o.commandRun route t text limit streamed w), (o.command route t text limit streamed w).2,
    [.ran (o.commandRun route t text limit streamed w)]⟩

def sink : Sink (Observed W) := fun host line ↦ .quietly fun w ↦ ((), o.display host line w)

def runner (route : Route) : Runner (Observed W) := fun t text limit sink ↦ do
  let run ← o.handOver route t text limit sink.isSome
  emit sink t.host run.lines
  fun w ↦ ⟨run.answer, w, []⟩

def executor (s : Setup) : Executor (Observed W) where
  registry := s.registry
  own := s.own
  transports :=
    { runHere := o.runner .here
      runThere := o.runner .there
      pingThere := fun t ↦ .ask (.pinged t) (o.ping t) }
  options := s.options
  sink := o.sink

def clock : Clock (Observed W) where
  now := .quietly o.now
  pass d := .quietly fun w ↦ ((), o.pass d w)
  date := .quietly o.date

def context (s : Setup) : Context (Observed W) where
  cluster := o.cluster
  executor := o.executor s
  clock := o.clock
  watchTimeout := s.watchTimeout

def shown (streamed : Bool) (host : Address) (lines : List String) (w : W) : W :=
  if streamed then lines.foldl (fun v line ↦ o.display host line v) w else w

theorem emit_sink (sink : Option (Sink (Observed W))) (hs : ∀ f ∈ sink, f = o.sink) (host : Address)
    (lines : List String) (w : W) : emit sink host lines w = ⟨some (), o.shown sink.isSome host lines w, []⟩ := by
  induction lines generalizing w with
  | nil => cases sink <;> rfl
  | cons line rest ih =>
    cases sink with
    | none => exact ih w
    | some f =>
      have hf : f = o.sink := hs f rfl
      subst hf
      exact ih (o.display host line w)

theorem runner_run (s : Setup) (host : Address) :
    (o.executor s).runner host = o.runner ((o.executor s).route host) := by
  unfold Executor.runner
  cases (o.executor s).route host <;> rfl

theorem runner_course (route : Route) (t : Target) (text : String) (limit : Option Duration)
    (sink : Option (Sink (Observed W))) (hs : ∀ f ∈ sink, f = o.sink) (w : W) :
    o.runner route t text limit sink w =
      ⟨(o.commandRun route t text limit sink.isSome w).answer,
        o.shown sink.isSome t.host (o.commandRun route t text limit sink.isSome w).lines
          (o.command route t text limit sink.isSome w).2,
        [.ran (o.commandRun route t text limit sink.isSome w)]⟩ := by
  have h : o.runner route t text limit sink w =
      (o.handOver route t text limit sink.isSome w).followed fun run u ↦
        (emit sink t.host run.lines u).followed fun _ u ↦ ⟨run.answer, u, []⟩ := rfl
  rw [h]
  simp only [handOver, Course.followed, o.emit_sink sink hs, Course.after, List.append_nil]

def handed (s : Setup) (t : Target) (command : String) (w : W) : CommandRun :=
  o.commandRun ((o.executor s).route t.host) t (t.credential.prepare command) s.options.commandTimeout
    s.options.streamOutput w

theorem handed_route (s : Setup) (t : Target) (command : String) (w : W) :
    (o.handed s t command w).route = if t.host ∈ s.own then .here else .there := by
  change (if decide (t.host ∈ s.own) = true then Route.here else Route.there) = _
  simp only [decide_eq_true_eq]

@[simp] theorem handed_target (s : Setup) (t : Target) (command : String) (w : W) :
    (o.handed s t command w).target = t := rfl

@[simp] theorem handed_text (s : Setup) (t : Target) (command : String) (w : W) :
    (o.handed s t command w).text = t.credential.prepare command := rfl

def left (s : Setup) (t : Target) (command : String) (w : W) : W :=
  o.shown s.options.streamOutput t.host (o.handed s t command w).lines
    (o.command ((o.executor s).route t.host) t (t.credential.prepare command) s.options.commandTimeout
      s.options.streamOutput w).2

/-- A command is handed over once, and the verdict on it is the result. -/
theorem run_course (s : Setup) (t : Target) (command : String) (w : W) :
    perform ((o.executor s).run t command) w =
      ⟨(o.handed s t command w).verdict, o.left s t command w, [.ran (o.handed s t command w)]⟩ := by
  have hrunner := o.runner_course ((o.executor s).route t.host) t (t.credential.prepare command)
    s.options.commandTimeout (o.executor s).sink? (fun _ ↦ Executor.eq_sink_of_mem) w
  rw [Executor.isSome_sink?] at hrunner
  have hcall : perform (Task.call ((o.executor s).runner t.host t (t.credential.prepare command)
      (o.executor s).options.commandTimeout (o.executor s).sink?)) w =
      ⟨(o.handed s t command w).answer, o.left s t command w, [.ran (o.handed s t command w)]⟩ := by
    rw [perform_call, runner_run]
    exact hrunner
  rw [Executor.run_eq, perform_bind, hcall]
  simp only [perform_ofExcept, CommandRun.verdict, Command.verdict, Course.andThen, handed_target, handed_text]
  rcases (o.handed s t command w).answer with _ | e | output
  · rfl
  · rfl
  · by_cases hz : output.status = 0
    · simp only [hz, if_true]
      rfl
    · simp only [hz, if_false]
      rfl

theorem runEach_nil (s : Setup) (t : Target) (w : W) :
    perform ((o.executor s).runEach t []) w = ⟨some (.ok ()), w, []⟩ := rfl

theorem runEach_cons (s : Setup) (t : Target) (command : String) (rest : List String) (w : W) :
    perform ((o.executor s).runEach t (command :: rest)) w =
      if command = "" then perform ((o.executor s).runEach t rest) w
      else (perform ((o.executor s).run t command) w).andThen fun _ v ↦
        perform ((o.executor s).runEach t rest) v := by
  rw [Executor.runEach_cons]
  split
  · rfl
  · rw [perform_bind]

theorem runEach_single (s : Setup) (t : Target) {command : String} (hc : command ≠ "") (w : W) :
    ∃ v, perform ((o.executor s).runEach t [command]) w =
      ⟨settled (o.handed s t command w).verdict, v, [.ran (o.handed s t command w)]⟩ := by
  refine ⟨o.left s t command w, ?_⟩
  rw [runEach_cons, if_neg hc, run_course]
  rcases (o.handed s t command w).verdict with _ | e | text <;> rfl

end Outside

end SelfHealing.Observation
