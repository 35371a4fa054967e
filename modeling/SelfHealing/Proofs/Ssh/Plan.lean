import Mathlib.Computability.Language
import SelfHealing.Proofs.Ssh.Talk

/-!
Talks that keep to a plan. A plan is a language of requests; a talk that keeps to it takes the requests of one of its
words in order, and goes on only after a step that passed. Main statement: running a command in an open session keeps
to the plan of a command.
-/

namespace SelfHealing.Ssh

open Command Net Text Time

def Request.isVariable : Request → Bool
  | setVariable .. => true
  | _ => false

/-- What has come of a step after which another may follow. -/
def Exchange.Passed (e : Exchange) : Prop :=
  e.Succeeded ∨ e.request.isVariable = true ∧ e.reply.isSome = true

theorem Exchange.Passed.replied {e : Exchange} (h : e.Passed) : e.reply ≠ none := by
  rcases h with h | ⟨-, h⟩
  · exact h.replied
  · exact Option.isSome_iff_ne_none.mp h

/-- The steps of a talk against its plan and its result. Only a talk that succeeds has taken all of them, only the last
can be one that did not pass, and an endless wait is for the last. -/
structure Upholds (plan : Language Request) {α : Type} (r : Except Failure α) (steps : List Exchange) : Prop where
  asked : ∃ word ∈ plan, steps.map (·.request) <+: word
  complete : ∀ a, r = .ok a → steps.map (·.request) ∈ plan ∧ ∀ e ∈ steps, e.Passed
  passed : ∀ e ∈ steps.dropLast, e.Passed
  endless : r = .error .endless ↔ ∃ e, steps.getLast? = some e ∧ e.reply = none

def Keeps (plan : Language Request) {α : Type} (x : Talk α) : Prop :=
  ∀ s, ∃ steps, (x.hold s).2.exchanges = steps.reverse ++ s.exchanges ∧ Upholds plan (x.hold s).1 steps

namespace Keeps

variable {α β : Type} {plan other : Language Request} {x : Talk α}

theorem mono (h : Keeps plan x) (hp : ∀ word ∈ plan, word ∈ other) : Keeps other x := by
  intro s
  obtain ⟨steps, hs, hu⟩ := h s
  obtain ⟨word, hword, hprefix⟩ := hu.asked
  exact ⟨steps, hs, ⟨word, hp word hword, hprefix⟩, fun a ha ↦ (hu.complete a ha).imp_left (hp _), hu.passed,
    hu.endless⟩

theorem quiet (hs : ∀ s, (x.hold s).2.exchanges = s.exchanges) (hr : ∀ s, (x.hold s).1 ≠ .error .endless) :
    Keeps 1 x := by
  intro s
  refine ⟨[], by simpa using hs s, ⟨[], rfl, List.prefix_rfl⟩, fun a ha ↦ ⟨rfl, by simp⟩, by simp, ?_⟩
  simpa using hr s

theorem single {r : Request} (h : ∀ s, ∃ e : Exchange, e.request = r ∧ (x.hold s).2.exchanges = e :: s.exchanges ∧
      (∀ a, (x.hold s).1 = .ok a → e.Passed) ∧ ((x.hold s).1 = .error .endless ↔ e.reply = none)) :
    Keeps {[r]} x := by
  intro s
  obtain ⟨e, rfl, hs, hok, hend⟩ := h s
  refine ⟨[e], hs, ⟨[e.request], rfl, List.prefix_rfl⟩, fun a ha ↦ ⟨rfl, ?_⟩, by simp, ?_⟩
  · simpa using hok a ha
  · simpa using hend

/-- Two talks one after the other. The second one begins only when the first one has succeeded. -/
theorem bind [Nonempty α] {f : α → Talk β} (hx : Keeps plan x) (hf : ∀ a, Keeps other (f a)) :
    Keeps (plan * other) (x >>= f) := by
  intro s
  obtain ⟨front, hfront, hu⟩ := hx s
  obtain ⟨word, hword, hprefix⟩ := hu.asked
  rcases hr : x.hold s with ⟨e | a, t⟩
  · rw [hr] at hfront hu
    -- The second talk never begins, so any word of its plan completes the first one's.
    obtain ⟨a⟩ := ‹Nonempty α›
    obtain ⟨_, -, hv⟩ := hf a s
    obtain ⟨rest, hrest, -⟩ := hv.asked
    rw [Talk.hold_bind_error hr]
    refine ⟨front, hfront, ⟨word ++ rest, Language.append_mem_mul hword hrest, hprefix.trans (List.prefix_append _ _)⟩,
      by simp, hu.passed, ?_⟩
    simpa using hu.endless
  · rw [hr] at hfront hu
    obtain ⟨hplan, hpassed⟩ := hu.complete a rfl
    obtain ⟨back, hback, hv⟩ := hf a t
    rw [Talk.hold_bind_ok hr]
    have hnoted : t.exchanges = front.reverse ++ s.exchanges := hfront
    refine ⟨front ++ back, by rw [hback, hnoted, List.reverse_append, List.append_assoc], ?_, ?_, ?_, ?_⟩
    · obtain ⟨rest, hrest, hp⟩ := hv.asked
      refine ⟨front.map (·.request) ++ rest, Language.append_mem_mul hplan hrest, ?_⟩
      rw [List.map_append]
      exact (List.prefix_append_right_inj _).mpr hp
    · intro b hb
      obtain ⟨hother, hpassed'⟩ := hv.complete b hb
      rw [List.map_append]
      refine ⟨Language.append_mem_mul hplan hother, fun e he ↦ ?_⟩
      exact (List.mem_append.mp he).elim (hpassed e) (hpassed' e)
    · intro e he
      by_cases hnil : back = []
      · subst hnil
        rw [List.append_nil] at he
        exact hpassed e (List.mem_of_mem_dropLast he)
      · rw [List.dropLast_append_of_ne_nil hnil] at he
        exact (List.mem_append.mp he).elim (hpassed e) (hv.passed e)
    · rw [hv.endless]
      by_cases hnil : back = []
      · -- Nothing was asked after the first talk, whose last step was answered.
        subst hnil
        refine iff_of_false (by simp) ?_
        rintro ⟨e, he, hnone⟩
        rw [List.append_nil] at he
        exact (hpassed e (List.mem_of_getLast? he)).replied hnone
      · rw [List.getLast?_append_of_ne_nil _ hnil]

end Keeps

section Parts

variable {p : Peer} {host : Address} {d : Deadline}

theorem hold_arm (p : Peer) (host : Address) (d : Deadline) (s : Session) :
    (arm p host d).hold s =
      match d.nextTimeout? (Talk.paused p s).now with
      | some timeout => (.ok (), { Talk.paused p s with timeout := timeout })
      | none => (.error (.error (.connection host "deadline exceeded")), Talk.paused p s) := by
  simp only [arm, Talk.hold_bind, Talk.hold_clock]
  cases d.nextTimeout? (Talk.paused p s).now <;> rfl

theorem arm_exchanges (p : Peer) (host : Address) (d : Deadline) (s : Session) :
    ((arm p host d).hold s).2.exchanges = s.exchanges := by
  rw [hold_arm]
  cases d.nextTimeout? (Talk.paused p s).now <;> rfl

theorem arm_keeps (p : Peer) (host : Address) (d : Deadline) : Keeps 1 (arm p host d) := by
  refine .quiet (arm_exchanges p host d) fun s ↦ ?_
  rw [hold_arm]
  cases d.nextTimeout? (Talk.paused p s).now <;> simp

theorem pushLine_keeps (line : Octets) : Keeps 1 (pushLine line) :=
  .quiet (fun _ ↦ rfl) (fun s ↦ by simp [pushLine])

theorem demand_keeps (r : Request) (explain : String → Error) : Keeps {[r]} (Talk.demand p r explain) := by
  refine .single fun s ↦ ?_
  obtain ⟨e, he, -, ⟨hs, h⟩ | ⟨reason, hr, h⟩ | ⟨-, hn, h⟩⟩ := Talk.demand_cases p r explain s
  all_goals
    rw [h]
    refine ⟨e, he, rfl, ?_⟩
  · exact ⟨fun _ _ ↦ .inl hs, by simp [hs.replied]⟩
  · exact ⟨by simp, by simp [hr.replied]⟩
  · exact ⟨by simp, by simp [hn]⟩

def variableRequest (b : Binding) : Request := .setVariable b.key b.value

theorem ask_variable_keeps (b : Binding) : Keeps {[variableRequest b]} (Talk.ask p (variableRequest b)) := by
  refine .single fun s ↦ ?_
  refine ⟨exchangeOf (variableRequest b) (Talk.paused p s).now s.timeout (p.answer (variableRequest b :: s.requests)),
    rfl, ?_⟩
  rw [Talk.hold_ask, Talk.hold_converse]
  refine ⟨rfl, fun a ha ↦ .inr ⟨rfl, ?_⟩, ?_⟩
  · rw [Option.isSome_iff_ne_none, Ne, exchangeOf_reply_eq_none]
    intro hnone
    simp [hnone] at ha
  · rw [exchangeOf_reply_eq_none]
    rcases (p.answer (variableRequest b :: s.requests)).within? s.timeout with _ | ⟨after, _⟩ <;> simp

theorem setVariables_keeps (bs : List Binding) : Keeps {bs.map variableRequest} (setVariables p bs) := by
  induction bs with
  | nil => exact .quiet (fun _ ↦ rfl) (fun s ↦ by simp [setVariables])
  | cons b rest ih =>
    refine ((ask_variable_keeps b).bind fun _ ↦ ih).mono ?_
    rintro _ ⟨_, rfl, _, rfl, rfl⟩
    rfl

def readings : Language Request := {word | ∀ r ∈ word, r = .read}

theorem nil_mem_readings : [] ∈ readings := List.forall_mem_nil _

section Readings

variable {α β : Type} {x : Talk α}

theorem Keeps.no_readings (hx : Keeps 1 x) : Keeps readings x := by
  refine hx.mono fun word hword ↦ ?_
  obtain rfl : word = [] := hword
  exact nil_mem_readings

theorem Keeps.one_reading (hx : Keeps {[.read]} x) : Keeps readings x := by
  refine hx.mono fun word hword ↦ ?_
  obtain rfl : word = [.read] := hword
  exact List.forall_mem_singleton.mpr rfl

theorem Keeps.bind_readings [Nonempty α] {f : α → Talk β} (hx : Keeps readings x) (hf : ∀ a, Keeps readings (f a)) :
    Keeps readings (x >>= f) := by
  refine (hx.bind hf).mono ?_
  rintro _ ⟨front, hfront, back, hback, rfl⟩
  exact List.forall_mem_append.mpr ⟨hfront, hback⟩

end Readings

def receive (p : Peer) (host : Address) (a : Answer Octets) : Talk Octets := do
  match ← Talk.take p a with
  | .error reason => Talk.fail (.connection host s!"failed to read output: {reason}")
  | .ok bytes => return bytes

theorem hold_receive (a : Answer Octets) (s : Session) :
    (receive p host a).hold s =
      (match a.within? s.timeout with
        | some (_, .ok bytes) => .ok bytes
        | some (_, .error reason) => .error (.error (.connection host s!"failed to read output: {reason}"))
        | none => .error .endless,
      Talk.noted (exchangeOf .read (Talk.paused p s).now s.timeout a) (Talk.paused p s)) := by
  rw [receive, Talk.hold_bind, Talk.hold_take, Talk.hold_converse]
  rcases a.within? s.timeout with _ | ⟨after, reason | bytes⟩ <;> rfl

theorem receive_ok {a : Answer Octets} {s t : Session} {bytes : Octets}
    (h : (receive p host a).hold s = (.ok bytes, t)) : a.result = .ok bytes := by
  rw [hold_receive] at h
  rcases hw : a.within? s.timeout with _ | ⟨after, reason | got⟩
  · simp [hw] at h
  · simp [hw] at h
  · simp only [hw, Prod.mk.injEq, Except.ok.injEq] at h
    obtain ⟨rfl, -⟩ := h
    unfold Answer.within? at hw
    repeat' split at hw
    all_goals simp_all

theorem receive_keeps (a : Answer Octets) : Keeps readings (receive p host a) := by
  refine (Keeps.single fun s ↦ ?_).one_reading
  refine ⟨exchangeOf .read (Talk.paused p s).now s.timeout a, rfl, ?_⟩
  rw [hold_receive]
  refine ⟨rfl, fun bytes hb ↦ .inl ?_, ?_⟩
  · rcases hw : a.within? s.timeout with _ | ⟨after, _ | bytes⟩
    · simp [hw] at hb
    · simp [hw] at hb
    · exact exchangeOf_succeeded hw
  · rw [exchangeOf_reply_eq_none]
    rcases a.within? s.timeout with _ | ⟨after, _ | bytes⟩ <;> simp

theorem within?_now {α : Type} (a : α) (patience : Option Duration) :
    (Answer.now a).within? patience = some (.zero, .ok a) := by
  cases patience with
  | none => rfl
  | some limit =>
    have hle : Duration.zero ≤ limit := Nat.zero_le limit.nanos
    simp only [Answer.within?, Answer.now, if_pos hle]

theorem take_end (s : Session) :
    (Talk.take p (.now [])).hold s =
      (.ok (.ok []), Talk.noted (exchangeOf .read (Talk.paused p s).now s.timeout (.now ([] : Octets)))
        (Talk.paused p s)) := by
  rw [Talk.hold_take, Talk.hold_converse, within?_now]

theorem take_end_keeps : Keeps readings (Talk.take p (.now [])) := by
  refine (Keeps.single fun s ↦ ?_).one_reading
  refine ⟨exchangeOf .read (Talk.paused p s).now s.timeout (.now ([] : Octets)), rfl, ?_⟩
  rw [take_end]
  refine ⟨rfl, fun _ _ ↦ .inl (exchangeOf_succeeded (within?_now _ _)), ?_⟩
  rw [exchangeOf_reply_eq_none, within?_now]
  simp

theorem finishLines_nil {held : Octets} (h : held.isEmpty) : finishLines p host d held = pure () := by
  simp [finishLines, h]

theorem finishLines_cons {held : Octets} (h : ¬held.isEmpty) : finishLines p host d held = (do
    pushLine held
    arm p host d
    let _ ← Talk.take p (.now [])) := by
  simp [finishLines, h]

theorem finishLines_keeps (held : Octets) : Keeps readings (finishLines p host d held) := by
  by_cases h : held.isEmpty
  · rw [finishLines_nil h]
    exact (Keeps.quiet (fun _ ↦ rfl) (fun s ↦ by simp)).no_readings
  · rw [finishLines_cons h]
    refine (pushLine_keeps held).no_readings.bind_readings fun _ ↦ ?_
    refine (arm_keeps p host d).no_readings.bind_readings fun _ ↦ ?_
    exact take_end_keeps.bind_readings fun _ ↦ (Keeps.quiet (fun _ ↦ rfl) (fun s ↦ by simp)).no_readings

section Lines

variable {held ready : Octets} {output : List (Answer Octets)}

theorem readLines_line (h : newline ∈ ready) :
    readLines p host d held ready output = (do
      pushLine (held ++ (takeLine ready).1)
      arm p host d
      readLines p host d [] (takeLine ready).2 output) := by
  rw [readLines, dif_pos h]

theorem readLines_nil (h : newline ∉ ready) :
    readLines p host d held ready [] = (do
      let _ ← Talk.take p (.now [])
      finishLines p host d (held ++ ready)) := by
  rw [readLines, dif_neg h]

theorem readLines_cons (h : newline ∉ ready) (a : Answer Octets) :
    readLines p host d held ready (a :: output) = (do
      let bytes ← receive p host a
      if bytes.isEmpty then finishLines p host d (held ++ ready)
      else readLines p host d (held ++ ready) bytes output) := by
  rw [readLines, dif_neg h, receive, bind_assoc]
  refine congrArg (Talk.take p a >>= ·) (funext fun r ↦ ?_)
  cases r <;> rfl

end Lines

theorem readLines_keeps (p : Peer) (host : Address) (d : Deadline) (held ready : Octets)
    (output : List (Answer Octets)) : Keeps readings (readLines p host d held ready output) := by
  induction held, ready, output using readLines.induct with
  | case1 held ready output h _ ih =>
    rw [readLines_line h]
    refine (pushLine_keeps _).no_readings.bind_readings fun _ ↦ ?_
    exact (arm_keeps p host d).no_readings.bind_readings fun _ ↦ ih
  | case2 held ready h =>
    rw [readLines_nil h]
    exact take_end_keeps.bind_readings fun _ ↦ finishLines_keeps _
  | case3 held ready h _ a more ih =>
    rw [readLines_cons h]
    refine (receive_keeps a).bind_readings fun bytes ↦ ?_
    split
    · exact finishLines_keeps _
    · exact ih bytes

end Parts

section Command

variable {p : Peer} {t : Target} {command : String} {d : Deadline}

def collect (p : Peer) (t : Target) (command : String) (d : Deadline) : Talk Output := do
  arm p t.host d
  readLines p t.host d [] [] (p.reaction command).output
  arm p t.host d
  Talk.demand p .awaitClose (channelFailed t.host)
  return ⟨(p.reaction command).exit.code, (← get).transcript.text⟩

def execPrepared (p : Peer) (t : Target) (command : String) (d : Deadline) : Talk Output := do
  Talk.demand p (.exec command) (channelFailed t.host)
  collect p t command d

theorem exec_eq : exec p t command d = (do
    arm p t.host d
    Talk.demand p .openChannel (channelFailed t.host)
    setVariables p t.environment
    execPrepared p t command d) := by
  simp only [exec, execPrepared, collect]

def commandAgenda (t : Target) (command : String) (reads : Nat) : List Request :=
  .openChannel :: (t.environment.map variableRequest ++ .exec command :: (List.replicate reads .read ++ [.awaitClose]))

def commandPlan (t : Target) (command : String) : Language Request :=
  {word | ∃ reads, word = commandAgenda t command reads}

theorem collect_keeps (p : Peer) (t : Target) (command : String) (d : Deadline) :
    Keeps (readings * {[.awaitClose]}) (collect p t command d) := by
  have hreturn : Keeps 1 (do return ⟨(p.reaction command).exit.code, (← get).transcript.text⟩ : Talk Output) :=
    .quiet (fun _ ↦ rfl) (fun s h ↦ by cases h)
  have hclose := (arm_keeps p t.host d).bind fun _ ↦
    (demand_keeps (p := p) .awaitClose (channelFailed t.host)).bind fun _ ↦ hreturn
  have hread := (arm_keeps p t.host d).bind fun _ ↦
    (readLines_keeps p t.host d [] [] (p.reaction command).output).bind fun _ ↦ hclose
  rw [one_mul, one_mul, mul_one] at hread
  exact hread

theorem execPrepared_keeps (p : Peer) (t : Target) (command : String) (d : Deadline) :
    Keeps ({[.exec command]} * (readings * {[.awaitClose]})) (execPrepared p t command d) :=
  (demand_keeps _ _).bind fun _ ↦ collect_keeps p t command d

theorem exec_keeps (p : Peer) (t : Target) (command : String) (d : Deadline) :
    Keeps (commandPlan t command) (exec p t command d) := by
  rw [exec_eq]
  refine ((arm_keeps p t.host d).bind fun _ ↦ (demand_keeps _ _).bind fun _ ↦ (setVariables_keeps _).bind fun _ ↦
    execPrepared_keeps p t command d).mono ?_
  rw [one_mul]
  rintro _ ⟨_, rfl, _, ⟨_, rfl, _, ⟨_, rfl, _, ⟨reads, hreads, _, rfl, rfl⟩, rfl⟩, rfl⟩, rfl⟩
  refine ⟨reads.length, ?_⟩
  rw [commandAgenda, ← List.eq_replicate_length.mpr hreads]
  rfl

end Command

end SelfHealing.Ssh
