import SelfHealing.Proofs.Command.Executor
import SelfHealing.Proofs.Ssh.Protocol

/-!
What becomes of the status that a server reports. Main statement: for a command that runs to the close of its session an
executor reports success exactly when the status is zero or there is none at all.
-/

namespace SelfHealing.Ssh

open Command Net Text Time

section Session

variable {p : Peer} {t : Target} {command : String} {d : Deadline} {s u : Session} {output : Output}

theorem collect_ok (h : (collect p t command d).hold s = (.ok output, u)) :
    output.status = (p.reaction command).exit.code := by
  simp only [collect, Talk.hold_bind_eq_ok] at h
  obtain ⟨_, _, -, _, _, -, _, _, -, _, v, -, _, w, hget, hpure⟩ := h
  simp only [Talk.hold_get, Talk.hold_pure, Prod.mk.injEq, Except.ok.injEq] at hget hpure
  rw [← hpure.1]

theorem exec_ok (h : (exec p t command d).hold s = (.ok output, u)) :
    output.status = (p.reaction command).exit.code := by
  rw [exec_eq] at h
  simp only [Talk.hold_bind_eq_ok] at h
  obtain ⟨_, _, -, _, _, -, _, v, -, hprepared⟩ := h
  obtain ⟨_, _, -, hcollect⟩ := Talk.hold_bind_eq_ok.mp hprepared
  exact collect_ok hcollect

theorem run_ok {connectTimeout : Duration} {limit : Option Duration}
    (h : (run p connectTimeout t command limit).hold s = (.ok output, u)) :
    output.status = (p.reaction command).exit.code := by
  rw [run_eq] at h
  simp only [Talk.hold_bind_eq_ok] at h
  obtain ⟨now, _, -, _, v, -, hserve⟩ := h
  rcases hexec : (exec p t command ⟨limit, now⟩).hold v with ⟨r, w⟩
  rcases serve_cases connectTimeout limit hexec with ⟨-, h⟩ | ⟨_, result, _, h, -, -, -, hok⟩
  · simp [h] at hserve
  · rw [h] at hserve
    have hr := (hok output).mp (Prod.mk.inj hserve).1
    rw [hr] at hexec
    exact exec_ok hexec

end Session

/-- Lines can always be shown. -/
def Shows {W : Type} (sink : Sink (OptionT (StateM W))) : Prop :=
  ∀ host line w, ∃ v, (sink host line).run.run w = (some (), v)

structure Reaches {W : Type} (n : Network (StateM W)) (connectTimeout : Duration) (e : Executor (OptionT (StateM W)))
    (t : Target) : Prop where
  there : e.transports.runThere = n.runner connectTimeout
  away : isLocal t.host e.own = false
  target : e.registry.target t.host = .ok t
  shows : Shows e.sink

section Executors

variable {W : Type} {n : Network (StateM W)} {connectTimeout : Duration} {e : Executor (OptionT (StateM W))}
  {t : Target}

theorem run_bind_some {α β : Type} {x : OptionT (StateM W) α} {w v : W} {a : α} (h : x.run.run w = (some a, v))
    (f : α → OptionT (StateM W) β) : (x >>= f).run.run w = (f a).run.run v := by
  simp only [OptionT.run_bind, Option.elimM, StateT.run_bind, h]
  rfl

theorem emit_shows {sink : Option (Sink (OptionT (StateM W)))} (hs : ∀ f ∈ sink, Shows f) (host : Address)
    (lines : List String) (w : W) : ∃ v, (emit sink host lines).run.run w = (some (), v) := by
  induction lines generalizing w with
  | nil => exact ⟨w, rfl⟩
  | cons line rest ih =>
    cases sink with
    | none => exact ih w
    | some f =>
      rw [emit]
      obtain ⟨v, hv⟩ := hs f rfl host line w
      obtain ⟨u, hu⟩ := ih v
      exact ⟨u, by rw [run_bind_some hv, hu]⟩

theorem carry_ok {command : String} {limit : Option Duration} {w : W} {output : Output} {s : Session}
    (hrun : (run (n.peer t w).1 connectTimeout t command limit).hold .start = (.ok output, s)) :
    (n.carry t fun p ↦ run p connectTimeout t command limit).run.run w =
      (some (.ok output, s.transcript.lines), (n.record s.requests.reverse (n.peer t w).2).2) := by
  have hpeer : (liftM (n.peer t) : OptionT (StateM W) Peer).run.run w =
      (some (n.peer t w).1, (n.peer t w).2) := rfl
  have hsession : (run (n.peer t w).1 connectTimeout t command limit).run.run .start = (.ok output, s) := hrun
  rw [Network.carry, run_bind_some hpeer, hsession]
  rfl

theorem runner_ok {command : String} {limit : Option Duration} {sink : Option (Sink (OptionT (StateM W)))}
    (hs : ∀ f ∈ sink, Shows f) {w : W} {output : Output} {s : Session}
    (hrun : (run (n.peer t w).1 connectTimeout t command limit).hold .start = (.ok output, s)) :
    ∃ v, (n.runner connectTimeout t command limit sink).run.run w = (some (.ok output), v) := by
  obtain ⟨v, hv⟩ := emit_shows hs t.host s.transcript.lines (n.record s.requests.reverse (n.peer t w).2).2
  refine ⟨v, ?_⟩
  rw [Network.runner, run_bind_some (carry_ok hrun)]
  simp only
  rw [run_bind_some hv]
  rfl

theorem task_call {α : Type} {x : OptionT (StateM W) (Except Error α)} {w v : W} {r : Except Error α}
    (h : x.run.run w = (some r, v)) : (Task.run (Task.call x)).run.run w = (some (some r), v) := by
  have hcall : Task.run (Task.call x) = (do return some (← x)) := rfl
  rw [hcall, run_bind_some h]
  rfl

theorem task_run_bind {α β : Type} (x : Task (OptionT (StateM W)) α) (f : α → Task (OptionT (StateM W)) β) :
    Task.run (x >>= f) = Task.run x >>= fun r ↦
      match r with
      | some (.ok a) => Task.run (f a)
      | some (.error e) => return some (.error e)
      | none => return none := by
  simp only [Task.run, ExceptT.run_bind, OptionT.run_bind, Option.elimM]
  refine congrArg _ (funext fun r ↦ ?_)
  rcases r with _ | e | a <;> rfl

theorem task_bind {α β : Type} {x : Task (OptionT (StateM W)) α} {w v : W} {a : α}
    (h : (Task.run x).run.run w = (some (some (.ok a)), v)) (f : α → Task (OptionT (StateM W)) β) :
    (Task.run (x >>= f)).run.run w = (Task.run (f a)).run.run v := by
  rw [task_run_bind, run_bind_some h]

theorem task_bind_error {α β : Type} {x : Task (OptionT (StateM W)) α} {w v : W} {e : Error}
    (h : (Task.run x).run.run w = (some (some (.error e)), v)) (f : α → Task (OptionT (StateM W)) β) :
    (Task.run (x >>= f)).run.run w = (some (some (.error e)), v) := by
  rw [task_run_bind, run_bind_some h]
  rfl

theorem execute_reached (hn : Reaches n connectTimeout e t) {command : String} {w : W} {output : Output} {s : Session}
    (hrun : (run (n.peer t w).1 connectTimeout t (t.credential.prepare command) e.options.commandTimeout).hold .start =
      (.ok output, s)) :
    ∃ v, (Task.run (e.execute t.host command)).run.run w =
      (some (some (verdict t (t.credential.prepare command) output)), v) := by
  have hrunner : e.runner t.host = n.runner connectTimeout := by
    simp only [Executor.runner, Executor.route, hn.away, ← hn.there]
    rfl
  have hshows : ∀ f ∈ e.sink?, Shows f := by
    intro f hf
    rw [Executor.eq_sink_of_mem hf]
    exact hn.shows
  obtain ⟨v, hv⟩ := runner_ok hshows hrun
  refine ⟨v, ?_⟩
  have htarget : (Task.run (Task.ofExcept (e.registry.target t.host) : Task (OptionT (StateM W)) Target)).run.run w =
      (some (some (.ok t)), w) := by
    rw [hn.target]
    rfl
  rw [Executor.execute, task_bind htarget, Executor.run_eq, hrunner, task_bind (task_call hv)]
  cases verdict t (t.credential.prepare command) output <;> rfl

end Executors

theorem code_eq_zero {exit : ExitReport} :
    exit.code = 0 ↔ exit = .status 0 ∨ exit = .signal ∨ exit = .missing := by
  cases exit with
  | status code =>
    have hzero : code.toInt32.toInt = 0 ↔ code = 0 := by
      rw [← Int32.toInt_zero, Int32.toInt_inj]
      exact ⟨fun h ↦ congrArg Int32.toUInt32 h, fun h ↦ by rw [h]; rfl⟩
    simp [ExitReport.code, hzero]
  | signal => simp [ExitReport.code]
  | missing => simp [ExitReport.code]

/-- For a command that runs to the close of its session, the executor reports what it wrote if its status is zero or it
has none, as after a signal; else it reports the status. -/
theorem execute_closed {W : Type} {n : Network (StateM W)} {connectTimeout : Duration}
    {e : Executor (OptionT (StateM W))} {t : Target} (hn : Reaches n connectTimeout e t) {command : String} {w : W}
    {output : Output} {s : Session}
    (hrun : (run (n.peer t w).1 connectTimeout t (t.credential.prepare command) e.options.commandTimeout).hold .start =
      (.ok output, s)) :
    let exit := ((n.peer t w).1.reaction (t.credential.prepare command)).exit
    ∃ v, (Task.run (e.execute t.host command)).run.run w =
      (some (some (if exit = .status 0 ∨ exit = .signal ∨ exit = .missing then .ok output.text
        else .error (.commandFailed t.host (t.credential.prepare command) exit.code output.text))), v) := by
  intro exit
  obtain ⟨v, hv⟩ := execute_reached hn hrun
  refine ⟨v, ?_⟩
  have hstatus : output.status = exit.code := run_ok hrun
  simp only [hv, verdict, hstatus, code_eq_zero]

def ending (exit : ExitReport) : Peer where
  session := .ok ()
  answer _ := .now ()
  confirms := true
  reaction _ := ⟨[.now (encode "partial\n"), .now []], exit⟩
  pause _ := .zero

def networkOf (p : Peer) : Network (StateM Unit) where
  peer _ := pure p
  record _ := pure ()

def remoteExecutor (n : Network (StateM Unit)) : Executor (OptionT (StateM Unit)) where
  registry := ⟨[⟨[passwordTarget.host], [], passwordTarget.credential, []⟩], .empty⟩
  own := []
  transports :=
    { runHere := fun _ _ _ _ ↦ failure
      runThere := n.runner (.ofSeconds 10)
      pingThere := n.pinger (.ofSeconds 10) }
  options := .standard
  sink _ _ := pure ()

theorem reaches_remote (n : Network (StateM Unit)) : Reaches n (.ofSeconds 10) (remoteExecutor n) passwordTarget where
  there := rfl
  away := rfl
  target := by cbv
  shows _ _ w := ⟨w, rfl⟩

theorem run_ending (exit : ExitReport) :
    ∃ s, (run ((networkOf (ending exit)).peer passwordTarget ()).1 (.ofSeconds 10) passwordTarget
      (passwordTarget.credential.prepare "true") (remoteExecutor (networkOf (ending exit))).options.commandTimeout).hold
        .start = (.ok ⟨exit.code, "partial\n"⟩, s) := by
  have hprepare : passwordTarget.credential.prepare "true" = "true" := by cbv
  have hpeer : ((networkOf (ending exit)).peer passwordTarget ()).1 = ending exit := rfl
  have hlimit : (remoteExecutor (networkOf (ending exit))).options.commandTimeout = some (.ofSeconds 600) := rfl
  have hresult : ((run (ending exit) (.ofSeconds 10) passwordTarget "true" (some (.ofSeconds 600))).hold .start).1 =
      .ok ⟨exit.code, "partial\n"⟩ := by
    cbv
  rw [hprepare, hpeer, hlimit]
  exact ⟨_, Prod.ext hresult rfl⟩

theorem execute_closed_three :
    Reaches (networkOf (ending (.status 3))) (.ofSeconds 10) (remoteExecutor (networkOf (ending (.status 3))))
        passwordTarget ∧
      (∃ s, (run ((networkOf (ending (.status 3))).peer passwordTarget ()).1 (.ofSeconds 10) passwordTarget
        (passwordTarget.credential.prepare "true")
        (remoteExecutor (networkOf (ending (.status 3)))).options.commandTimeout).hold .start =
          (.ok ⟨(ExitReport.status 3).code, "partial\n"⟩, s)) ∧
      ∃ v,
        (Task.run ((remoteExecutor (networkOf (ending (.status 3)))).execute passwordTarget.host "true")).run.run () =
          (some (some (.error (.commandFailed passwordTarget.host "true" 3 "partial\n"))), v) := by
  have hreaches := reaches_remote (networkOf (ending (.status 3)))
  obtain ⟨s, hrun⟩ := run_ending (.status 3)
  obtain ⟨v, hv⟩ := execute_closed hreaches hrun
  refine ⟨hreaches, ⟨s, hrun⟩, v, ?_⟩
  rw [hv]
  have hprepare : passwordTarget.credential.prepare "true" = "true" := by cbv
  have hexit : (((networkOf (ending (.status 3))).peer passwordTarget ()).1.reaction
    (passwordTarget.credential.prepare "true")).exit = .status 3 := rfl
  have hcode : (ExitReport.status 3).code = 3 := by cbv
  have hfailed :
      ¬(ExitReport.status 3 = .status 0 ∨ ExitReport.status 3 = .signal ∨ ExitReport.status 3 = .missing) := by
    decide
  rw [hexit, if_neg hfailed, hprepare, hcode]

/-- A command that a signal has ended is taken for a success. -/
theorem killed_succeeds :
    ¬∀ (W : Type) (n : Network (StateM W)) (connectTimeout : Duration) (e : Executor (OptionT (StateM W))) (t : Target)
      (command text : String) (w v : W) (output : Output) (s : Session), Reaches n connectTimeout e t →
      (run (n.peer t w).1 connectTimeout t (t.credential.prepare command) e.options.commandTimeout).hold .start =
        (.ok output, s) →
      (Task.run (e.execute t.host command)).run.run w = (some (some (.ok text)), v) →
        ((n.peer t w).1.reaction (t.credential.prepare command)).exit = .status 0 := by
  intro h
  have hreaches := reaches_remote (networkOf (ending .signal))
  obtain ⟨s, hrun⟩ := run_ending .signal
  obtain ⟨v, hv⟩ := execute_reached hreaches hrun
  have hexit := h Unit _ _ _ _ "true" "partial\n" () v _ s hreaches hrun hv
  have hsignal : ExitReport.signal = .status 0 := hexit
  cases hsignal

end SelfHealing.Ssh
