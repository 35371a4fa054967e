import SelfHealing.Proofs.Command.Child
import SelfHealing.Proofs.Registry.Entry
import SelfHealing.Proofs.Ssh.Output
import SelfHealing.Proofs.Ssh.Status

/-!
A shell of this machine and a session elsewhere show the same. Main statement: two executors that differ only in whether
a host is one of this machine's addresses give the same results for it and show the same lines, if the child here and the
server there write the same octets and end with the same code.
-/

namespace SelfHealing.Command

open Net Ssh Text Time

section Work

variable {W α β : Type} (shown : W → List (Address × String))

def Gives (x : OptionT (StateM W) α) (a : α) (lines : List (Address × String)) : Prop :=
  ∀ w, ∃ v, x.run.run w = (some a, v) ∧ shown v = shown w ++ lines

/-- A task that always comes to the same result and shows the same lines. -/
def Ends (x : Task (OptionT (StateM W)) α) (result : Except Error α) (lines : List (Address × String)) : Prop :=
  Gives shown (Task.run x) (some result) lines

variable {shown}

theorem Gives.pure (a : α) : Gives shown (Pure.pure a) a [] := fun w ↦ ⟨w, rfl, (List.append_nil _).symm⟩

theorem Gives.bind {x : OptionT (StateM W) α} {f : α → OptionT (StateM W) β} {a : α} {b : β}
    {front back : List (Address × String)} (hx : Gives shown x a front) (hf : Gives shown (f a) b back) :
    Gives shown (x >>= f) b (front ++ back) := by
  intro w
  obtain ⟨v, hv, hfront⟩ := hx w
  obtain ⟨u, hu, hback⟩ := hf v
  exact ⟨u, by rw [run_bind_some hv, hu], by rw [hback, hfront, List.append_assoc]⟩

theorem Ends.pure (a : α) : Ends shown (Pure.pure a) (.ok a) [] := fun w ↦ ⟨w, rfl, (List.append_nil _).symm⟩

theorem Ends.throw (e : Error) : Ends shown (throw e : Task (OptionT (StateM W)) α) (.error e) [] :=
  fun w ↦ ⟨w, rfl, (List.append_nil _).symm⟩

theorem Ends.ofExcept (r : Except Error α) : Ends shown (Task.ofExcept r) r [] := by
  cases r with
  | ok a => exact .pure a
  | error e => exact .throw e

theorem Ends.call {x : OptionT (StateM W) (Except Error α)} {r : Except Error α} {lines : List (Address × String)}
    (h : Gives shown x r lines) : Ends shown (Task.call x) r lines := by
  intro w
  obtain ⟨v, hv, hlines⟩ := h w
  exact ⟨v, task_call hv, hlines⟩

theorem Ends.bind_ok {x : Task (OptionT (StateM W)) α} {f : α → Task (OptionT (StateM W)) β} {a : α}
    {r : Except Error β} {front back : List (Address × String)} (hx : Ends shown x (.ok a) front)
    (hf : Ends shown (f a) r back) : Ends shown (x >>= f) r (front ++ back) := by
  intro w
  obtain ⟨v, hv, hfront⟩ := hx w
  obtain ⟨u, hu, hback⟩ := hf v
  exact ⟨u, by rw [task_bind hv, hu], by rw [hback, hfront, List.append_assoc]⟩

theorem Ends.bind_error {x : Task (OptionT (StateM W)) α} {f : α → Task (OptionT (StateM W)) β} {e : Error}
    {lines : List (Address × String)} (hx : Ends shown x (.error e) lines) : Ends shown (x >>= f) (.error e) lines := by
  intro w
  obtain ⟨v, hv, hlines⟩ := hx w
  exact ⟨v, task_bind_error hv f, hlines⟩

end Work

variable {W : Type} {shown : W → List (Address × String)} {launch : Launch} {n : Network (StateM W)}
  {connectTimeout : Duration} {limit : Option Duration} {t : Target} {text : String} {output : Octets} {code : UInt8}

def Records (shown : W → List (Address × String)) (sink : Sink (OptionT (StateM W))) : Prop :=
  ∀ host line, Gives shown (sink host line) () [(host, line)]

def displayed (streamed : Bool) (host : Address) (output : Octets) : List (Address × String) :=
  if streamed then (Transcript.ofOctets output).lines.map (host, ·) else []

theorem emit_gives {sink : Option (Sink (OptionT (StateM W)))} (hs : ∀ f ∈ sink, Records shown f) (host : Address)
    (lines : List String) :
    Gives shown (emit sink host lines) () (if sink.isSome then lines.map (host, ·) else []) := by
  induction lines with
  | nil =>
    have hnone : (if sink.isSome then ([] : List String).map (host, ·) else []) = [] := by split <;> rfl
    rw [hnone]
    exact .pure ()
  | cons line rest ih =>
    cases sink with
    | none => exact ih
    | some f => exact (hs f rfl host line).bind ih

/-- A child of this machine and a server elsewhere do the same with a text: they write the same octets, in whatever
pieces, and end with the same code; the child in time, and the session with the close of its channel. -/
structure Alike (launch : Launch) (n : Network (StateM W)) (connectTimeout : Duration) (limit : Option Duration)
    (t : Target) (text : String) (output : Octets) (code : UInt8) : Prop where
  starts : startFailure? text t.environment = none
  child : Writes (launch text t.environment) output code limit
  sent : ∀ w, received ((n.peer t w).1.reaction text).output = output
  reported : ∀ w, ((n.peer t w).1.reaction text).exit = .status code.toUInt32
  closed : ∀ w, ∃ e ∈ ((Ssh.run (n.peer t w).1 connectTimeout t text limit).hold .start).2.exchanges, e.Closes

theorem localRunner_gives (h : Alike launch n connectTimeout limit t text output code)
    {sink : Option (Sink (OptionT (StateM W)))} (hs : ∀ f ∈ sink, Records shown f) :
    Gives shown (localRunner launch t text limit sink) (.ok ⟨code.toNat, (Transcript.ofOctets output).text⟩)
      (displayed sink.isSome t.host output) := by
  have hrunner : localRunner launch t text limit sink = (do
      emit sink t.host (Transcript.ofOctets output).lines
      return .ok ⟨code.toNat, (Transcript.ofOctets output).text⟩) := by
    simp only [localRunner, h.starts, collect_writes h.child]
  rw [hrunner, displayed, ← List.append_nil (ite _ _ _)]
  exact (emit_gives hs t.host _).bind (.pure _)

theorem code_of_uint8 (code : UInt8) : (ExitReport.status code.toUInt32).code = code.toNat := by
  change code.toUInt32.toBitVec.toInt = code.toNat
  have h : code.toUInt32.toBitVec.toNat = code.toNat := UInt8.toNat_toUInt32 code
  have hlt : code.toNat < 256 := code.toNat_lt
  rw [BitVec.toInt_eq_toNat_of_lt (by omega), h]

structure Hides (shown : W → List (Address × String)) (n : Network (StateM W)) : Prop where
  peer : ∀ t w, shown (n.peer t w).2 = shown w
  record : ∀ requests w, shown (n.record requests w).2 = shown w

theorem runner_gives (hn : Hides shown n) (h : Alike launch n connectTimeout limit t text output code)
    {sink : Option (Sink (OptionT (StateM W)))} (hs : ∀ f ∈ sink, Records shown f) :
    Gives shown (n.runner connectTimeout t text limit sink) (.ok ⟨code.toNat, (Transcript.ofOctets output).text⟩)
      (displayed sink.isSome t.host output) := by
  intro w
  obtain ⟨given, s, hrun⟩ := run_closed (h.closed w)
  obtain ⟨hgiven, hshown⟩ := run_shown hrun
  rw [h.reported, h.sent, code_of_uint8] at hgiven
  rw [h.sent] at hshown
  obtain ⟨v, hv, hlines⟩ := emit_gives hs t.host s.transcript.lines (n.record s.requests.reverse (n.peer t w).2).2
  refine ⟨v, ?_, ?_⟩
  · rw [Network.runner, run_bind_some (carry_ok hrun)]
    simp only
    rw [run_bind_some hv, hgiven]
    rfl
  · rw [hlines, hn.record, hn.peer, hshown]
    rfl

def Executor.placed {m : Type → Type} (e : Executor m) (own : List Address) : Executor m := { e with own := own }

/-- An executor that runs commands as children of this machine and in sessions of a network, and shows their lines. -/
structure Shares (shown : W → List (Address × String)) (launch : Launch) (n : Network (StateM W))
    (connectTimeout : Duration) (e : Executor (OptionT (StateM W))) : Prop where
  here : e.transports.runHere = localRunner launch
  there : e.transports.runThere = n.runner connectTimeout
  records : Records shown e.sink
  hides : Hides shown n

section Executors

variable {e : Executor (OptionT (StateM W))} {command : String}

def outcome (t : Target) (command : String) (output : Octets) (code : UInt8) : Except Error String :=
  if code = 0 then .ok (Transcript.ofOctets output).text
  else .error (.commandFailed t.host (t.credential.prepare command) code.toNat (Transcript.ofOctets output).text)

theorem toNat_eq_zero {code : UInt8} : (code.toNat : Int) = 0 ↔ code = 0 := by
  rw [Int.natCast_eq_zero, ← UInt8.toNat_inj]
  rfl

theorem outcome_eq : outcome t command output code = verdict t (t.credential.prepare command)
    ⟨code.toNat, (Transcript.ofOctets output).text⟩ := by
  simp only [outcome, verdict, toNat_eq_zero]

theorem run_ends (hs : Shares shown launch n connectTimeout e)
    (h : Alike launch n connectTimeout e.options.commandTimeout t (t.credential.prepare command) output code)
    (own : List Address) :
    Ends shown ((e.placed own).run t command) (outcome t command output code)
      (displayed e.options.streamOutput t.host output) := by
  have hsink : ∀ f ∈ e.sink?, Records shown f := by
    intro f hf
    rw [Executor.eq_sink_of_mem hf]
    exact hs.records
  have hcall : Ends shown (Task.call ((e.placed own).runner t.host t (t.credential.prepare command)
      e.options.commandTimeout e.sink?)) (.ok ⟨code.toNat, (Transcript.ofOctets output).text⟩)
      (displayed e.options.streamOutput t.host output) := by
    rw [← Executor.isSome_sink?]
    apply Ends.call
    unfold Executor.runner
    cases (e.placed own).route t.host with
    | here =>
      change Gives shown (e.transports.runHere t _ _ e.sink?) _ _
      rw [hs.here]
      exact localRunner_gives h hsink
    | there =>
      change Gives shown (e.transports.runThere t _ _ e.sink?) _ _
      rw [hs.there]
      exact runner_gives hs.hides h hsink
  rw [Executor.run_eq, outcome_eq, ← List.append_nil (displayed _ _ _)]
  exact hcall.bind_ok (.ofExcept _)

theorem target_host {r : Registry} {host : Address} (h : r.target host = .ok t) : t.host = host := by
  rw [Registry.target_eq] at h
  cases he : r.entry? host with
  | none => simp [he] at h
  | some entry =>
    rw [he] at h
    cases h
    rfl

theorem target_ends {r : Except Error Target} {host : Address} (hr : e.registry.target host = r) (own : List Address) :
    Ends shown (Task.ofExcept ((e.placed own).registry.target host)) r [] := by
  have hkept : (e.placed own).registry.target host = r := hr
  rw [hkept]
  exact .ofExcept r

theorem execute_ends (hs : Shares shown launch n connectTimeout e) {host : Address} (ht : e.registry.target host = .ok t)
    (h : Alike launch n connectTimeout e.options.commandTimeout t (t.credential.prepare command) output code)
    (own : List Address) :
    Ends shown ((e.placed own).execute host command) (outcome t command output code)
      (displayed e.options.streamOutput t.host output) := by
  rw [← List.nil_append (displayed _ _ _)]
  exact (target_ends ht own).bind_ok (run_ends hs h own)

theorem executeToString_ends (hs : Shares shown launch n connectTimeout e) {host : Address}
    (ht : e.registry.target host = .ok t)
    (h : Alike launch n connectTimeout e.options.commandTimeout t (t.credential.prepare command) output code)
    (own : List Address) (separator : String) :
    Ends shown ((e.placed own).executeToString host command separator)
      (if output = [] ∧ code = 0 ∧ host ∉ own then .error (.emptyOutput host command)
        else (outcome t command output code).map (joinLines separator))
      (displayed e.options.streamOutput t.host output) := by
  have hexecute := execute_ends hs ht h own
  by_cases hz : code = 0
  · have houtcome : outcome t command output code = .ok (Transcript.ofOctets output).text := if_pos hz
    have hempty : ((Transcript.ofOctets output).text.isEmpty && decide ((e.placed own).route host = .there)) = true ↔
        output = [] ∧ code = 0 ∧ host ∉ own := by
      rw [Executor.lacks_text_iff, Transcript.ofOctets_text_eq_empty]
      exact and_congr_right fun _ ↦ (and_iff_right hz).symm
    rw [houtcome] at hexecute ⊢
    rw [← List.append_nil (displayed _ _ _)]
    refine hexecute.bind_ok ?_
    by_cases hmissing : output = [] ∧ code = 0 ∧ host ∉ own
    · rw [if_pos (hempty.mpr hmissing), if_pos hmissing]
      exact Ends.bind_error (.throw _)
    · rw [if_neg (mt hempty.mp hmissing), if_neg hmissing]
      exact .pure _
  · have houtcome : outcome t command output code = .error (.commandFailed t.host (t.credential.prepare command)
        code.toNat (Transcript.ofOctets output).text) := if_neg hz
    rw [houtcome] at hexecute ⊢
    rw [if_neg (fun hmissing ↦ hz hmissing.2.1)]
    exact Ends.bind_error hexecute

theorem runEach_ends (hs : Shares shown launch n connectTimeout e) {outputs : String → Octets} {codes : String → UInt8}
    {commands : List String}
    (h : ∀ command ∈ commands, command ≠ "" → Alike launch n connectTimeout e.options.commandTimeout t
      (t.credential.prepare command) (outputs command) (codes command)) :
    ∃ result lines, ∀ own, Ends shown ((e.placed own).runEach t commands) result lines := by
  induction commands with
  | nil => exact ⟨.ok (), [], fun own ↦ .pure ()⟩
  | cons command rest ih =>
    obtain ⟨hfirst, hrest⟩ := List.forall_mem_cons.mp h
    obtain ⟨result, lines, hlater⟩ := ih hrest
    simp only [Executor.runEach_cons]
    by_cases hc : command = ""
    · simp only [if_pos hc]
      exact ⟨result, lines, hlater⟩
    · simp only [if_neg hc]
      have hrun := run_ends hs (hfirst hc)
      cases houtcome : outcome t command (outputs command) (codes command) with
      | ok text =>
        refine ⟨result, displayed e.options.streamOutput t.host (outputs command) ++ lines, fun own ↦ ?_⟩
        have hown := hrun own
        rw [houtcome] at hown
        exact hown.bind_ok (hlater own)
      | error reason =>
        refine ⟨.error reason, displayed e.options.streamOutput t.host (outputs command), fun own ↦ ?_⟩
        have hown := hrun own
        rw [houtcome] at hown
        exact hown.bind_error

end Executors

/-- Wherever an executor takes a host to be, a command comes to the same result for it after the same lines, if a child
here and a server there write the same octets and end with the same code; so do commands in turn. Joined to one text, the
output differs only where nothing at all was written: elsewhere that is a failure. A host that no entry lists is refused
alike. -/
theorem transports_agree {e : Executor (OptionT (StateM W))} (hs : Shares shown launch n connectTimeout e)
    (host : Address) :
    (∀ reason, e.registry.target host = .error reason → ∀ own command separator commands,
      Ends shown ((e.placed own).execute host command) (.error reason) [] ∧
      Ends shown ((e.placed own).executeToString host command separator) (.error reason) [] ∧
      Ends shown ((e.placed own).executeAll host commands) (.error reason) []) ∧
    ∀ t, e.registry.target host = .ok t → t.host = host ∧
      (∀ command output code,
        Alike launch n connectTimeout e.options.commandTimeout t (t.credential.prepare command) output code → ∀ own,
          Ends shown ((e.placed own).execute host command) (outcome t command output code)
            (displayed e.options.streamOutput host output) ∧
          (∀ separator, Ends shown ((e.placed own).executeToString host command separator)
            (if output = [] ∧ code = 0 ∧ host ∉ own then .error (.emptyOutput host command)
              else (outcome t command output code).map (joinLines separator))
            (displayed e.options.streamOutput host output)) ∧
          (output = [] → ∀ separator, joinLines separator (Transcript.ofOctets output).text = "")) ∧
      ∀ (commands : List String) (outputs : String → Octets) (codes : String → UInt8),
        (∀ command ∈ commands, command ≠ "" → Alike launch n connectTimeout e.options.commandTimeout t
          (t.credential.prepare command) (outputs command) (codes command)) →
        ∃ result lines, ∀ own, Ends shown ((e.placed own).executeAll host commands) result lines := by
  refine ⟨?refused, fun t ht ↦ ⟨target_host ht, ?single, ?inTurn⟩⟩
  case refused =>
    intro reason hreason own command separator commands
    have hrefused : Ends shown (Task.ofExcept ((e.placed own).registry.target host)) (.error reason) [] :=
      target_ends hreason own
    exact ⟨hrefused.bind_error, Ends.bind_error hrefused.bind_error, hrefused.bind_error⟩
  case single =>
    intro command output code h own
    have hexecute := execute_ends hs ht h own
    have hjoined := executeToString_ends hs ht h own
    rw [target_host ht] at hexecute
    simp only [target_host ht] at hjoined
    refine ⟨hexecute, hjoined, ?_⟩
    intro hempty separator
    rw [Transcript.ofOctets_text_eq_empty.mpr hempty]
    rfl
  case inTurn =>
    intro commands outputs codes h
    obtain ⟨result, lines, hends⟩ := runEach_ends hs h
    exact ⟨result, lines, fun own ↦ (target_ends ht own).bind_ok (hends own)⟩

def halting : Launch := fun _ _ ↦
  [⟨.ofMillis 1, .wrote .out (encode "par")⟩, ⟨.zero, .closed .err⟩, ⟨.ofMillis 1, .wrote .out (encode "tial\n")⟩,
    ⟨.zero, .exited (some 3)⟩, ⟨.zero, .closed .out⟩]

def network (p : Peer) : Network (StateM (List (Address × String))) where
  peer _ := pure p
  record _ := pure ()

def loggingExecutor (p : Peer) : Executor (OptionT (StateM (List (Address × String)))) where
  registry := ⟨[⟨[passwordTarget.host], [], passwordTarget.credential, []⟩], .empty⟩
  own := []
  transports :=
    { runHere := localRunner halting
      runThere := (network p).runner (.ofSeconds 10)
      pingThere := (network p).pinger (.ofSeconds 10) }
  options := .standard
  sink host line := modify (· ++ [(host, line)])

/-- A command that writes a line and fails does so here and elsewhere. -/
theorem transports_agree_failing :
    Ends id (((loggingExecutor (ending (.status 3))).placed [passwordTarget.host]).execute passwordTarget.host "true")
      (.error (.commandFailed passwordTarget.host "true" 3 "partial\n")) [(passwordTarget.host, "partial")] ∧
    Ends id (((loggingExecutor (ending (.status 3))).placed []).execute passwordTarget.host "true")
      (.error (.commandFailed passwordTarget.host "true" 3 "partial\n")) [(passwordTarget.host, "partial")] := by
  have hprepare : passwordTarget.credential.prepare "true" = "true" := by cbv
  have htarget : (loggingExecutor (ending (.status 3))).registry.target passwordTarget.host = .ok passwordTarget := by
    cbv
  have hshares : Shares id halting (network (ending (.status 3))) (.ofSeconds 10) (loggingExecutor (ending (.status 3))) :=
    { here := rfl
      there := rfl
      records := fun host line w ↦ ⟨w ++ [(host, line)], rfl, rfl⟩
      hides := ⟨fun _ _ ↦ rfl, fun _ _ ↦ rfl⟩ }
  have hwrites : Writes (halting "true" passwordTarget.environment) (encode "partial\n") 3 (some (.ofSeconds 600)) := by
    refine ⟨by cbv, by cbv, ?_, by cbv, by decide⟩
    intro pipe
    cases pipe <;> simp [halting]
  have hclosed : ((run (ending (.status 3)) (.ofSeconds 10) passwordTarget "true" (some (.ofSeconds 600))).hold
      .start).2.exchanges[1]? = some ⟨.awaitClose, ⟨0⟩, some (.ofMillis 600000), some (.zero, .ok ())⟩ := by
    cbv
  have halike : Alike halting (network (ending (.status 3))) (.ofSeconds 10)
      (loggingExecutor (ending (.status 3))).options.commandTimeout passwordTarget
      (passwordTarget.credential.prepare "true") (encode "partial\n") 3 := by
    rw [hprepare]
    exact
      { starts := by cbv
        child := hwrites
        sent := fun _ ↦ by cbv
        reported := fun _ ↦ rfl
        closed := fun w ↦ by
          have hpeer : ((network (ending (.status 3))).peer passwordTarget w).1 = ending (.status 3) := rfl
          have hlimit : (loggingExecutor (ending (.status 3))).options.commandTimeout = some (.ofSeconds 600) := rfl
          rw [hpeer, hlimit]
          exact ⟨_, List.mem_of_getElem? hclosed, rfl, .zero, rfl⟩ }
  have houtcome : outcome passwordTarget "true" (encode "partial\n") 3 =
      .error (.commandFailed passwordTarget.host "true" 3 "partial\n") := by
    cbv
  have hlines : displayed true passwordTarget.host (encode "partial\n") = [(passwordTarget.host, "partial")] := by
    cbv
  have hends (own : List Address) :=
    (((transports_agree hshares passwordTarget.host).2 passwordTarget htarget).2.1 "true" _ 3 halike own).1
  have hstreamed : (loggingExecutor (ending (.status 3))).options.streamOutput = true := rfl
  rw [houtcome, hstreamed, hlines] at hends
  exact ⟨hends _, hends _⟩

end SelfHealing.Command
