import SelfHealing.Proofs.Ssh.Protocol

/-!
What becomes of a command whose time runs out. The timeout of a request is what was left of the limit in whole
milliseconds when it was set, and once the command has failed the limit is looked at again by the same rounding. Main
statement: no fraction of a millisecond comes between the two. A request that runs out of its time makes the command a
timeout, and nothing else is taken for one.
-/

namespace SelfHealing.Ssh

open Command Net Text Time

def Exchange.RanOut (e : Exchange) : Prop :=
  ∃ patience after reason, e.patience = some patience ∧ e.reply = some (after, .error reason) ∧
    patience.nanos ≤ after.nanos

theorem Exchange.Succeeded.not_ranOut {e : Exchange} (h : e.Succeeded) : ¬e.RanOut := by
  rintro ⟨_, _, _, -, hreply, -⟩
  obtain ⟨_, hsucceeded⟩ := h
  simp [hsucceeded] at hreply

/-- A request under a timeout that was set before it, and that it has kept to by a moment. -/
structure Exchange.Timed (d : Deadline) (now : Instant) (e : Exchange) : Prop where
  armed : ∃ moment : Instant, d.started.nanos ≤ moment.nanos ∧ moment.nanos ≤ e.began.nanos ∧
    d.nextTimeout? moment = some e.patience
  ended : ∀ after result, e.reply = some (after, result) → e.began.nanos + after.nanos ≤ now.nanos

theorem Exchange.Timed.mono {d : Deadline} {now later : Instant} {e : Exchange} (h : e.Timed d now)
    (hle : now.nanos ≤ later.nanos) : e.Timed d later :=
  ⟨h.armed, fun after result hreply ↦ Nat.le_trans (h.ended after result hreply) hle⟩

/-- A timeout as a session may be given it. Zero milliseconds would be no timeout. -/
def Deadline.Admits (d : Deadline) (timeout : Option Duration) : Prop :=
  match d.limit with
  | none => timeout = none
  | some _ => ∃ n, 0 < n ∧ n ≤ 0xFFFFFFFF ∧ timeout = some (.ofMillis n)

section Rounding

variable {d : Deadline} {limit : Duration} {now later : Instant}

theorem nextTimeout?_admitted {timeout : Option Duration} (h : d.nextTimeout? now = some timeout) :
    d.Admits timeout := by
  unfold Deadline.Admits
  rcases hlimit : d.limit with _ | limit
  · simp only [Deadline.nextTimeout?, hlimit, Option.some.injEq] at h
    exact h.symm
  · rw [nextTimeout?_limited hlimit, Option.ite_none_right_eq_some] at h
    obtain ⟨hleft, h⟩ := h
    refine ⟨_, ?_, Nat.min_le_right _ _, (Option.some_inj.mp h).symm⟩
    simp only [Duration.wholeMillis]
    omega

theorem isOver_unlimited (hlimit : d.limit = none) (now : Instant) : d.isOver now = false := by
  simp only [Deadline.isOver, Deadline.nextTimeout?, hlimit, Option.isNone_some]

theorem isOver_iff (hlimit : d.limit = some limit) :
    d.isOver now = true ↔ limit.nanos < (now.since d.started).nanos + 1000000 := by
  rw [Deadline.isOver, nextTimeout?_limited hlimit, Option.isNone_iff_eq_none, ite_eq_right_iff]
  simp only [reduceCtorEq, imp_false, Nat.not_le]

theorem isOver_mono (h : d.isOver now = true) (hle : now.nanos ≤ later.nanos) : d.isOver later = true := by
  rcases hlimit : d.limit with _ | limit
  · simp [isOver_unlimited hlimit] at h
  · rw [isOver_iff hlimit] at h ⊢
    simp only [Instant.since] at h ⊢
    omega

theorem Exchange.Timed.isOver {e : Exchange} (ht : e.Timed d now) (hlimit : d.limit = some limit)
    (hfits : limit.wholeMillis ≤ 0xFFFFFFFF) (he : e.RanOut) : d.isOver now = true := by
  obtain ⟨moment, hstarted, hbegan, hset⟩ := ht.armed
  obtain ⟨patience, after, reason, hpatience, hreply, hafter⟩ := he
  have hended := ht.ended after _ hreply
  rw [nextTimeout?_limited hlimit, Option.ite_none_right_eq_some, hpatience, Option.some_inj, Option.some_inj] at hset
  obtain ⟨hleft, rfl⟩ := hset
  rw [isOver_iff hlimit]
  simp only [Instant.since, Duration.ofMillis, sessionMillis, Duration.wholeMillis] at *
  omega

end Rounding

def Armed (d : Deadline) (s : Session) : Prop :=
  ∃ moment : Instant, d.started.nanos ≤ moment.nanos ∧ moment.nanos ≤ s.now.nanos ∧
    d.nextTimeout? moment = some s.timeout

theorem Armed.begun {d : Deadline} {s : Session} (h : Armed d s) : d.started.nanos ≤ s.now.nanos := by
  obtain ⟨moment, hstarted, hnow, -⟩ := h
  exact Nat.le_trans hstarted hnow

theorem Armed.mono {d : Deadline} {s t : Session} (h : Armed d s) (htimeout : t.timeout = s.timeout)
    (hle : s.now.nanos ≤ t.now.nanos) : Armed d t := by
  obtain ⟨moment, hstarted, hnow, hset⟩ := h
  exact ⟨moment, hstarted, Nat.le_trans hnow hle, htimeout ▸ hset⟩

/-- The steps of a talk from one session to another, by the clock. All that it raises is a failed connection, and one
for want of time only when the limit is over. -/
structure Clocked (d : Deadline) (host : Address) {α : Type} (s u : Session) (r : Except Failure α)
    (steps : List Exchange) : Prop where
  noted : u.exchanges = steps.reverse ++ s.exchanges
  onward : s.now.nanos ≤ u.now.nanos
  timed : ∀ e ∈ steps, e.Timed d u.now
  blamed : ∀ e, r = .error (.error e) →
    ∃ message, e = .connection host message ∧ (message = "deadline exceeded" → d.isOver u.now = true)

section Clocked

variable {d : Deadline} {host : Address} {α β : Type} {s t u : Session} {r : Except Failure α} {r' : Except Failure β}
  {front back : List Exchange}

theorem Clocked.append (h : Clocked d host s t r front) (h' : Clocked d host t u r' back) :
    Clocked d host s u r' (front ++ back) := by
  refine ⟨?_, Nat.le_trans h.onward h'.onward, ?_, h'.blamed⟩
  · rw [h'.noted, h.noted, List.reverse_append, List.append_assoc]
  · intro e he
    rcases List.mem_append.mp he with he | he
    · exact (h.timed e he).mono h'.onward
    · exact h'.timed e he

theorem Clocked.error {f : Failure} (h : Clocked d host s t (.error f : Except Failure α) front) :
    Clocked d host s t (.error f : Except Failure β) front :=
  ⟨h.noted, h.onward, h.timed, fun e he ↦ h.blamed e (by cases he; rfl)⟩

end Clocked

def Paced (d : Deadline) (host : Address) {α : Type} (x : Talk α) : Prop :=
  ∀ s, Armed d s → Armed d (x.hold s).2 ∧ ∃ steps, Clocked d host s (x.hold s).2 (x.hold s).1 steps

namespace Paced

variable {d : Deadline} {host : Address} {α β : Type} {x : Talk α}

theorem bind {f : α → Talk β} (hx : Paced d host x) (hf : ∀ a, Paced d host (f a)) : Paced d host (x >>= f) := by
  intro s hs
  obtain ⟨harmed, front, hc⟩ := hx s hs
  rcases hr : x.hold s with ⟨e | a, t⟩
  · rw [hr] at harmed hc
    rw [Talk.hold_bind_error hr]
    exact ⟨harmed, front, hc.error⟩
  · rw [hr] at harmed hc
    rw [Talk.hold_bind_ok hr]
    obtain ⟨harmed', back, hc'⟩ := hf a t harmed
    exact ⟨harmed', front ++ back, hc.append hc'⟩

theorem still (hx : ∀ s, (x.hold s).2.now = s.now ∧ (x.hold s).2.timeout = s.timeout ∧
      (x.hold s).2.exchanges = s.exchanges) (hr : ∀ s e, (x.hold s).1 ≠ .error (.error e)) : Paced d host x := by
  intro s hs
  obtain ⟨hnow, htimeout, hexchanges⟩ := hx s
  have hle : s.now.nanos ≤ (x.hold s).2.now.nanos := by rw [hnow]
  exact ⟨hs.mono htimeout hle, [], hexchanges, hle, by simp, fun e he ↦ absurd he (hr s e)⟩

theorem request {p : Peer} (hx : ∀ s, ∃ e : Exchange, (x.hold s).2 = Talk.noted e (Talk.paused p s) ∧
      e.began = (Talk.paused p s).now ∧ e.patience = s.timeout ∧
        ∀ f, (x.hold s).1 = .error (.error f) → ∃ message, f = .connection host message ∧
          message ≠ "deadline exceeded") : Paced d host x := by
  intro s hs
  obtain ⟨e, hu, hbegan, hpatience, hr⟩ := hx s
  have hpaused : s.now.nanos ≤ (Talk.paused p s).now.nanos := Nat.le_add_right _ _
  have hnoted : (Talk.paused p s).now.nanos ≤ (Talk.noted e (Talk.paused p s)).now.nanos := Nat.le_add_right _ _
  have hle := Nat.le_trans hpaused hnoted
  rw [hu]
  refine ⟨hs.mono rfl hle, [e], rfl, hle, List.forall_mem_singleton.mpr ?_, fun f hf ↦ ?_⟩
  · obtain ⟨moment, hstarted, hnow, hset⟩ := hs
    refine ⟨⟨moment, hstarted, ?_, by rw [hpatience, hset]⟩, fun after result hreply ↦ ?_⟩
    · rw [hbegan]
      exact Nat.le_trans hnow hpaused
    · simp [Talk.noted, Instant.after, hbegan, hreply]
  · obtain ⟨message, hmessage, hne⟩ := hr f hf
    exact ⟨message, hmessage, fun h ↦ absurd h hne⟩

end Paced

theorem append_ne_of_front {front text : String} (h : ¬front.toList <+: text.toList) (back : String) :
    front ++ back ≠ text := by
  rintro rfl
  exact h (by simp)

section Parts

variable {p : Peer} {host : Address} {d : Deadline}

/-- Once the limit is over, a timeout cannot be set. -/
theorem arm_clocked (p : Peer) (host : Address) {s : Session} (hs : d.started.nanos ≤ s.now.nanos) :
    Clocked d host s ((arm p host d).hold s).2 ((arm p host d).hold s).1 [] ∧
      (Armed d s ∨ ((arm p host d).hold s).1 = .ok () → Armed d ((arm p host d).hold s).2) := by
  have hle : s.now.nanos ≤ (Talk.paused p s).now.nanos := Nat.le_add_right _ _
  rw [hold_arm]
  rcases hnext : d.nextTimeout? (Talk.paused p s).now with _ | timeout
  · have hover : d.isOver (Talk.paused p s).now = true := by rw [Deadline.isOver, hnext, Option.isNone_none]
    refine ⟨⟨rfl, hle, by simp, ?_⟩, fun harmed ↦ (harmed.resolve_right (by simp)).mono rfl hle⟩
    rintro _ ⟨⟩
    exact ⟨_, rfl, fun _ ↦ hover⟩
  · exact ⟨⟨rfl, hle, by simp, by simp⟩, fun _ ↦ ⟨_, Nat.le_trans hs hle, Nat.le_refl _, hnext⟩⟩

theorem arm_paced : Paced d host (arm p host d) := by
  intro s hs
  obtain ⟨hclocked, harmed⟩ := arm_clocked p host hs.begun
  exact ⟨harmed (.inl hs), [], hclocked⟩

theorem pushLine_paced (line : Octets) : Paced d host (pushLine line) :=
  .still (fun _ ↦ ⟨rfl, rfl, rfl⟩) (fun _ _ ↦ by simp [pushLine])

theorem ask_paced (r : Request) : Paced d host (Talk.ask p r) := by
  refine .request (p := p) fun s ↦
    ⟨exchangeOf r (Talk.paused p s).now s.timeout (p.answer (r :: s.requests)), ?_, rfl, rfl, fun f hf ↦ ?_⟩
  all_goals rw [Talk.hold_ask, Talk.hold_converse] at *
  split at hf <;> simp at hf

theorem demand_paced (r : Request) : Paced d host (Talk.demand p r (channelFailed host)) := by
  refine .request (p := p) fun s ↦
    ⟨exchangeOf r (Talk.paused p s).now s.timeout (p.answer (r :: s.requests)), ?_, rfl, rfl, fun f hf ↦ ?_⟩
  all_goals rw [Talk.hold_demand] at *
  split at hf <;> cases hf
  exact ⟨_, rfl, append_ne_of_front (by decide) _⟩

theorem receive_paced (a : Answer Octets) : Paced d host (receive p host a) := by
  refine .request (p := p) fun s ↦
    ⟨exchangeOf .read (Talk.paused p s).now s.timeout a, ?_, rfl, rfl, fun f hf ↦ ?_⟩
  all_goals rw [hold_receive] at *
  split at hf <;> cases hf
  exact ⟨_, rfl, append_ne_of_front (by decide) _⟩

theorem take_end_paced : Paced d host (Talk.take p (.now [])) := by
  refine .request (p := p) fun s ↦
    ⟨exchangeOf .read (Talk.paused p s).now s.timeout (.now ([] : Octets)), ?_, rfl, rfl, fun f hf ↦ ?_⟩
  all_goals rw [take_end] at *
  cases hf

theorem setVariables_paced (bs : List Binding) : Paced d host (setVariables p bs) := by
  induction bs with
  | nil => exact .still (fun _ ↦ ⟨rfl, rfl, rfl⟩) (fun _ _ ↦ by simp [setVariables])
  | cons b rest ih => exact (ask_paced _).bind fun _ ↦ ih

theorem finishLines_paced (held : Octets) : Paced d host (finishLines p host d held) := by
  by_cases h : held.isEmpty
  · rw [finishLines_nil h]
    exact .still (fun _ ↦ ⟨rfl, rfl, rfl⟩) (fun _ _ ↦ by simp)
  · rw [finishLines_cons h]
    refine (pushLine_paced held).bind fun _ ↦ arm_paced.bind fun _ ↦ take_end_paced.bind fun _ ↦ ?_
    exact .still (fun _ ↦ ⟨rfl, rfl, rfl⟩) (fun _ _ ↦ by simp)

theorem readLines_paced (held ready : Octets) (output : List (Answer Octets)) :
    Paced d host (readLines p host d held ready output) := by
  induction held, ready, output using readLines.induct with
  | case1 held ready output h _ ih =>
    rw [readLines_line h]
    exact (pushLine_paced _).bind fun _ ↦ arm_paced.bind fun _ ↦ ih
  | case2 held ready h =>
    rw [readLines_nil h]
    exact take_end_paced.bind fun _ ↦ finishLines_paced _
  | case3 held ready h _ a more ih =>
    rw [readLines_cons h]
    refine (receive_paced a).bind fun bytes ↦ ?_
    split
    · exact finishLines_paced _
    · exact ih bytes

end Parts

section Command

variable {p : Peer} {t : Target} {command : String} {d : Deadline}

theorem collect_paced : Paced d t.host (collect p t command d) := by
  refine arm_paced.bind fun _ ↦ (readLines_paced _ _ _).bind fun _ ↦ ?_
  refine arm_paced.bind fun _ ↦ (demand_paced _).bind fun _ ↦ ?_
  exact .still (fun _ ↦ ⟨rfl, rfl, rfl⟩) (fun _ _ h ↦ by cases h)

/-- A command whose output has been collected was in time before: its timeout was set anew then. -/
theorem collect_begins_in_time {output : Output} {s u : Session}
    (h : (collect p t command d).hold s = (.ok output, u)) : d.isOver s.now = false := by
  obtain ⟨_, v, harm, -⟩ := Talk.hold_bind_eq_ok.mp h
  rw [hold_arm] at harm
  rcases hnext : d.nextTimeout? (Talk.paused p s).now with _ | timeout
  · simp [hnext] at harm
  · have hpaused : d.isOver (Talk.paused p s).now = false := by rw [Deadline.isOver, hnext, Option.isNone_some]
    rw [← Bool.not_eq_true] at hpaused ⊢
    exact fun hover ↦ hpaused (isOver_mono hover (Nat.le_add_right _ _))

theorem execPrepared_paced : Paced d t.host (execPrepared p t command d) :=
  (demand_paced _).bind fun _ ↦ collect_paced

theorem execPrepared_ok {output : Output} {s u : Session} {steps : List Exchange} (hs : Armed d s)
    (h : (execPrepared p t command d).hold s = (.ok output, u)) (hsteps : u.exchanges = steps.reverse ++ s.exchanges) :
    (∀ e ∈ steps, e.Succeeded) ∧ d.isOver s.now = false := by
  obtain ⟨own, hown, hupholds⟩ := execPrepared_keeps p t command d s
  rw [h] at hown hupholds
  obtain rfl : steps = own := by simpa using hsteps.symm.trans hown
  obtain ⟨⟨_, rfl, _, ⟨reads, hreads, _, rfl, rfl⟩, hplan⟩, hpassed⟩ := hupholds.complete output rfl
  constructor
  · intro e he
    rcases hpassed e he with hsucceeded | ⟨hvariable, -⟩
    · exact hsucceeded
    · -- Only a variable may be refused, and there is none among these requests.
      have hmem : e.request ∈ steps.map (·.request) := List.mem_map_of_mem he
      rw [← hplan] at hmem
      rcases List.mem_append.mp hmem with hmem | hmem
      · simp [List.mem_singleton.mp hmem, Request.isVariable] at hvariable
      rcases List.mem_append.mp hmem with hmem | hmem
      · simp [hreads _ hmem, Request.isVariable] at hvariable
      · simp [List.mem_singleton.mp hmem, Request.isVariable] at hvariable
  · obtain ⟨_, v, hdemand, hcollect⟩ := Talk.hold_bind_eq_ok.mp h
    have hpaced : Paced d t.host (Talk.demand p (.exec command) (channelFailed t.host)) := demand_paced _
    obtain ⟨-, _, hclocked⟩ := hpaced s hs
    rw [hdemand] at hclocked
    have hlater := collect_begins_in_time hcollect
    rw [← Bool.not_eq_true] at hlater ⊢
    exact fun hover ↦ hlater (isOver_mono hover hclocked.onward)

/-- A command goes by the clock, and it does not succeed once a request has run out of its time. -/
theorem exec_clocked {s u : Session} {r : Except Failure Output} (hs : d.started.nanos ≤ s.now.nanos)
    (h : (exec p t command d).hold s = (r, u)) :
    ∃ steps, Clocked d t.host s u r steps ∧
      ∀ limit, d.limit = some limit → limit.wholeMillis ≤ 0xFFFFFFFF → (∃ e ∈ steps, e.RanOut) →
        ∀ output, r ≠ .ok output := by
  have hfront : Paced d t.host (do
      Talk.demand p .openChannel (channelFailed t.host)
      setVariables p t.environment) := (demand_paced _).bind fun _ ↦ setVariables_paced _
  rw [exec_eq, ← bind_assoc (Talk.demand p .openChannel (channelFailed t.host))] at h
  obtain ⟨harmed, hset⟩ := arm_clocked p t.host hs
  rcases hr : (arm p t.host d).hold s with ⟨f | ⟨⟩, v⟩
  · rw [hr] at harmed
    rw [Talk.hold_bind_error hr] at h
    cases h
    exact ⟨[], harmed.error, by simp⟩
  rw [hr] at harmed hset
  rw [Talk.hold_bind_ok hr] at h
  obtain ⟨hset, front, hclocked⟩ := hfront v (hset (.inr rfl))
  have hopened := harmed.append hclocked
  rcases hr' : (do
      Talk.demand p .openChannel (channelFailed t.host)
      setVariables p t.environment : Talk Unit).hold v with ⟨f | ⟨⟩, w⟩
  · rw [hr'] at hopened
    rw [Talk.hold_bind_error hr'] at h
    cases h
    exact ⟨front, hopened.error, by simp⟩
  rw [hr'] at hset hopened
  rw [Talk.hold_bind_ok hr'] at h
  have hrest : Paced d t.host (execPrepared p t command d) := execPrepared_paced
  obtain ⟨-, back, hback⟩ := hrest w hset
  rw [h] at hback
  refine ⟨front ++ back, hopened.append hback, ?_⟩
  rintro limit hlimit hfits ⟨e, he, hran⟩ output rfl
  obtain ⟨hsucceeded, hintime⟩ := execPrepared_ok hset h hback.noted
  rcases List.mem_append.mp he with he | he
  · -- A variable may run out of its time and be left out, but then the limit is over before the command is asked for.
    have hover := (hopened.timed e he).isOver hlimit hfits hran
    simp [hintime] at hover
  · exact (hsucceeded e he).not_ranOut hran

end Command

section Onward

variable {p : Peer} {α β : Type} {x : Talk α}

def Onward (x : Talk α) : Prop := ∀ s, s.now.nanos ≤ (x.hold s).2.now.nanos

theorem Onward.bind {f : α → Talk β} (hx : Onward x) (hf : ∀ a, Onward (f a)) : Onward (x >>= f) := by
  intro s
  have hfirst := hx s
  rcases hr : x.hold s with ⟨e | a, t⟩
  · rw [hr] at hfirst
    rwa [Talk.hold_bind_error hr]
  · rw [hr] at hfirst
    rw [Talk.hold_bind_ok hr]
    exact Nat.le_trans hfirst (hf a t)

theorem Onward.still (hx : ∀ s, (x.hold s).2.now = s.now) : Onward x := fun s ↦ by rw [hx]

theorem converse_onward (r : Request) (patience : Option Duration) (answer : List Request → Answer α) :
    Onward (Talk.converse p r patience answer) := by
  intro s
  rw [Talk.hold_converse]
  exact Nat.le_trans (Nat.le_add_right _ _) (Nat.le_add_right _ _)

theorem demand_onward (r : Request) (explain : String → Error) : Onward (Talk.demand p r explain) := by
  intro s
  rw [Talk.hold_demand]
  exact Nat.le_trans (Nat.le_add_right _ _) (Nat.le_add_right _ _)

theorem connect_onward (p : Peer) (connectTimeout : Duration) (t : Target) : Onward (connect p connectTimeout t) := by
  rw [connect]
  split
  · exact .still fun _ ↦ rfl
  · refine Onward.bind ?_ fun _ ↦ Onward.bind (.still fun _ ↦ by rw [Talk.hold_ofExcept]) fun _ ↦
      Onward.bind (.still fun _ ↦ rfl) fun _ ↦ (demand_onward _ _).bind fun _ ↦ ?_
    · refine (converse_onward _ _ _).bind fun result ↦ .still fun _ ↦ ?_
      rcases result with reason | ⟨⟩
      · rfl
      · by_cases hzero : connectTimeout.nanos = 0 <;> simp [hzero]
    · split
      · exact .still fun _ ↦ rfl
      · refine (demand_onward _ _).bind fun _ ↦ .still fun _ ↦ ?_
        cases p.confirms <;> rfl

end Onward

section Run

variable {p : Peer} {connectTimeout : Duration} {t : Target} {command : String} {d : Deadline}

def Untimed (e : Error) : Prop :=
  (∀ host, e ≠ .connection host "deadline exceeded") ∧ ∀ host command limit, e ≠ .commandTimeout host command limit

theorem untimed_connection {host : Address} {message : String} (h : message ≠ "deadline exceeded") :
    Untimed (.connection host message) :=
  ⟨fun _ he ↦ h (Error.connection.inj he).2, fun _ _ _ he ↦ by cases he⟩

theorem connect_untimed {s u : Session} {f : Failure} (h : (connect p connectTimeout t).hold s = (.error f, u)) :
    ∃ e, f = .error e ∧ Untimed e := by
  rcases hport : t.credential.portFor t.host with e | port
  · simp only [connect, hport, Talk.hold_fail, Prod.mk.injEq, Except.error.injEq] at h
    obtain ⟨rfl, -⟩ := h
    unfold Credential.portFor at hport
    split at hport <;> cases hport
    exact ⟨_, rfl, by simp [Untimed, Credential.invalidPort]⟩
  · obtain ⟨steps, r, v, hconnect, -, hc⟩ := connect_cases p connectTimeout hport s
    obtain rfl : r = .error f := congrArg Prod.fst (hconnect.symm.trans h)
    cases hc with
    | unreached =>
      refine ⟨_, rfl, untimed_connection ?_⟩
      rw [String.append_assoc, String.append_assoc]
      exact append_ne_of_front (by decide) _
    | unopened | unshaken | unconfirmed => exact ⟨_, rfl, untimed_connection (append_ne_of_front (by decide) _)⟩
    | anonymous => exact ⟨_, rfl, by simp [Untimed]⟩
    | refused login =>
      refine ⟨_, rfl, untimed_connection ?_⟩
      rw [String.append_assoc]
      cases login with
      | password _ =>
        simp only [Login.failed]
        exact append_ne_of_front (by decide) _
      | keyFile _ _ =>
        simp only [Login.failed]
        exact append_ne_of_front (by decide) _

/-- What has become of a command under a limit, when its failure was judged at a moment. -/
structure Judged (host : Address) (command : String) (d : Deadline) (decided : Instant) (steps : List Exchange)
    (r result : Except Failure Output) : Prop where
  /-- Each request has had the time that was left when its timeout was set. -/
  armed : ∀ e ∈ steps, ∃ moment : Instant, d.started.nanos ≤ moment.nanos ∧ moment.nanos ≤ e.began.nanos ∧
    d.nextTimeout? moment = some e.patience
  /-- Of a longer limit than a session can be given, some may be left when its timeout has passed. -/
  late : ∀ limit, d.limit = some limit → limit.wholeMillis ≤ 0xFFFFFFFF → (∃ e ∈ steps, e.RanOut) →
    result = .error (.error (.commandTimeout host command limit))
  timely : ∀ host' command' limit, result = .error (.error (.commandTimeout host' command' limit)) →
    host' = host ∧ command' = command ∧ d.limit = some limit ∧
      limit.nanos < (decided.since d.started).nanos + 1000000
  kept : (∀ limit, result ≠ .error (.error (.commandTimeout host command limit))) → result = r
  hidden : ∀ host', result ≠ .error (.error (.connection host' "deadline exceeded"))

/-- Either the limit is over and the failure is a timeout, or the result stands, and then it has another reason than the
limit. -/
theorem reviewed_cases {host : Address} {s u : Session} {r : Except Failure Output} {steps : List Exchange}
    (hc : Clocked d host s u r steps) {decided : Instant} (hle : u.now.nanos ≤ decided.nanos) (command : String) :
    (∃ limit, d.limit = some limit ∧ d.isOver decided = true ∧
        reviewed d decided (.commandTimeout host command (d.limit.getD .zero)) r =
          .error (.error (.commandTimeout host command limit))) ∨
      reviewed d decided (.commandTimeout host command (d.limit.getD .zero)) r = r ∧
        ∀ e, r = .error (.error e) → d.isOver decided = false ∧
          ∃ message, e = .connection host message ∧ message ≠ "deadline exceeded" := by
  rcases r with (e | ⟨⟩) | output
  · rcases hover : d.isOver decided with _ | _
    · refine .inr ⟨by simp only [reviewed, hover]; rfl, ?_⟩
      rintro _ ⟨⟩
      obtain ⟨message, rfl, hmessage⟩ := hc.blamed e rfl
      refine ⟨rfl, message, rfl, fun hdeadline ↦ ?_⟩
      simp [isOver_mono (hmessage hdeadline) hle] at hover
    · rcases hlimit : d.limit with _ | limit
      · simp [isOver_unlimited hlimit] at hover
      · exact .inl ⟨limit, rfl, rfl, by simp only [reviewed, hover, if_true, Option.getD_some]⟩
  · exact .inr ⟨rfl, by simp⟩
  · exact .inr ⟨rfl, by simp⟩

theorem judged_exec {s u : Session} {r : Except Failure Output} (hs : d.started.nanos ≤ s.now.nanos)
    (h : (exec p t command d).hold s = (r, u)) :
    ∃ steps, u.exchanges = steps.reverse ++ s.exchanges ∧ Judged t.host command d (Talk.paused p u).now steps r
      (reviewed d (Talk.paused p u).now (.commandTimeout t.host command (d.limit.getD .zero)) r) := by
  obtain ⟨steps, hclocked, hfailed⟩ := exec_clocked hs h
  have hdecided : u.now.nanos ≤ (Talk.paused p u).now.nanos := Nat.le_add_right _ _
  refine ⟨steps, hclocked.noted, ?_⟩
  rcases reviewed_cases hclocked hdecided command with ⟨limit, hlimit, hover, hresult⟩ | ⟨hresult, hother⟩
  all_goals rw [hresult]
  · refine ⟨fun e he ↦ (hclocked.timed e he).armed, ?_, ?_, fun h ↦ absurd rfl (h limit), by simp⟩
    · rintro _ hlimit' - -
      rw [Option.some_inj.mp (hlimit.symm.trans hlimit')]
    · rintro _ _ _ ⟨⟩
      exact ⟨rfl, rfl, hlimit, (isOver_iff hlimit).mp hover⟩
  · refine ⟨fun e he ↦ (hclocked.timed e he).armed, ?_, ?_, fun _ ↦ rfl, ?_⟩
    · -- After a request that has run out of its time the command has failed, and the limit is over.
      rintro limit hlimit hfits ⟨e, he, hran⟩
      have hover := ((hclocked.timed e he).mono hdecided).isOver hlimit hfits hran
      rcases r with (e | ⟨⟩) | output
      · simp [hover] at hother
      · exact absurd (congrArg Prod.fst h) (exec_ends hlimit s)
      · exact absurd rfl (hfailed limit hlimit hfits ⟨e, he, hran⟩ output)
    · rintro _ _ _ rfl
      obtain ⟨-, _, ⟨⟩, -⟩ := hother _ rfl
    · rintro _ rfl
      obtain ⟨-, _, ⟨⟩, hne⟩ := hother _ rfl
      exact hne rfl

end Run

/-- A session that does not come about fails in its own words. Once it has, a command is a timeout if one of its
requests has run out of its time, and it is one only when less than a millisecond of its limit is left. What sets the
timeouts never gives zero milliseconds, and its own failure is not told. -/
theorem run_judged (p : Peer) (connectTimeout : Duration) (t : Target) (command : String) (limit : Option Duration) :
    let begun := Talk.paused p .start
    let d : Deadline := ⟨limit, begun.now⟩
    (∀ now timeout, d.nextTimeout? now = some timeout → d.Admits timeout) ∧
      (∀ host, ((run p connectTimeout t command limit).hold .start).1 ≠
        .error (.error (.connection host "deadline exceeded"))) ∧
      match (connect p connectTimeout t).hold begun with
      | (.error f, u) => (run p connectTimeout t command limit).hold .start = (.error f, u) ∧
          ∀ host command limit, f ≠ .error (.commandTimeout host command limit)
      | (.ok (), s) => ∃ r u steps result v goodbye, (exec p t command d).hold s = (r, u) ∧
          u.exchanges = steps.reverse ++ s.exchanges ∧
          (run p connectTimeout t command limit).hold .start = (result, v) ∧
          v.exchanges = goodbye ++ u.exchanges ∧ (∀ e ∈ goodbye, e.request = .disconnect) ∧
          Judged t.host command d (Talk.paused p u).now steps r result := by
  intro begun d
  rw [run_eq, Talk.hold_bind_ok (Talk.hold_clock p .start)]
  refine ⟨fun now timeout h ↦ nextTimeout?_admitted h, ?_⟩
  have honward := connect_onward p connectTimeout t begun
  rcases hconnect : (connect p connectTimeout t).hold begun with ⟨f | ⟨⟩, s⟩
  · obtain ⟨e, rfl, hdeadline, htimeout⟩ := connect_untimed hconnect
    rw [Talk.hold_bind_error hconnect]
    exact ⟨fun host h ↦ hdeadline host (by simpa using h), rfl,
      fun host command limit h ↦ htimeout host command limit (by simpa using h)⟩
  · rw [hconnect] at honward
    rw [Talk.hold_bind_ok hconnect]
    rcases hexec : (exec p t command d).hold s with ⟨r, u⟩
    obtain ⟨steps, hsteps, hjudged⟩ := judged_exec honward hexec
    rcases serve_said connectTimeout limit hexec with ⟨rfl, hserve⟩ | ⟨-, e, v, hserve, hv, he⟩
    all_goals rw [hserve]
    · exact ⟨by simp, _, u, steps, _, u, [], hexec, hsteps, rfl, rfl, by simp, hjudged⟩
    · exact ⟨hjudged.hidden, r, u, steps, _, v, [e], hexec, hsteps, rfl, hv, by simpa using he, hjudged⟩

def lostWait : Exchange := ⟨.openChannel, ⟨0⟩, some (.ofMillis 1), some (.ofMillis 1, .error Answer.timedOut)⟩

theorem exec_mute : ∃ s, (connect mute (.ofSeconds 10) passwordTarget).hold (Talk.paused mute .start) = (.ok (), s) ∧
    ((exec mute passwordTarget "true" ⟨some ⟨1500000⟩, (Talk.paused mute .start).now⟩).hold s).2.exchanges =
      lostWait :: s.exchanges := by
  have hconnect : ((connect mute (.ofSeconds 10) passwordTarget).hold (Talk.paused mute .start)).1 = .ok () := by cbv
  refine ⟨_, Prod.ext hconnect rfl, ?_⟩
  cbv

/-- Under a limit of one and a half milliseconds a wait for a channel runs out of its time, and so the command is a
timeout. -/
theorem run_judged_mute :
    ∃ s u v, (connect mute (.ofSeconds 10) passwordTarget).hold (Talk.paused mute .start) = (.ok (), s) ∧
      ((exec mute passwordTarget "true" ⟨some ⟨1500000⟩, ⟨0⟩⟩).hold s).2 = u ∧ u.exchanges = lostWait :: s.exchanges ∧
      lostWait.RanOut ∧
      (run mute (.ofSeconds 10) passwordTarget "true" (some ⟨1500000⟩)).hold .start =
        (.error (.error (.commandTimeout passwordTarget.host "true" ⟨1500000⟩)), v) := by
  obtain ⟨s, hconnect, hwaited⟩ := exec_mute
  obtain ⟨-, -, h⟩ := run_judged mute (.ofSeconds 10) passwordTarget "true" (some ⟨1500000⟩)
  rw [hconnect] at h
  obtain ⟨r, u, steps, result, v, -, hexec, hsteps, hrun, -, -, hjudged⟩ := h
  rw [hexec] at hwaited
  have hreverse : steps.reverse = [lostWait] := (List.append_left_inj s.exchanges).mp (hsteps.symm.trans hwaited)
  have hmem : lostWait ∈ steps := List.mem_reverse.mp (hreverse ▸ List.mem_singleton_self lostWait)
  have hran : lostWait.RanOut := ⟨_, _, _, rfl, rfl, Nat.le_refl _⟩
  have hresult := hjudged.late ⟨1500000⟩ rfl (by decide) ⟨lostWait, hmem, hran⟩
  exact ⟨s, u, v, hconnect, congrArg Prod.snd hexec, hwaited, hran, by rw [hrun, hresult]⟩

end SelfHealing.Ssh
