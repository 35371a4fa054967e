import SelfHealing.Proofs.Ssh.Deadline

/-!
The times that the requests of a session may take. Main statement: but for the connection itself, which has the
timeout for connecting, a request may take a number of whole milliseconds from one up to what 32 bits hold, and any time
only for a command without a limit.
-/

namespace SelfHealing.Ssh

open Command Net Time

/-- Milliseconds as a session can be given them: zero would be no timeout. -/
def Grantable (timeout : Duration) : Prop := ∃ n, 0 < n ∧ n ≤ 0xFFFFFFFF ∧ timeout = .ofMillis n

def Exchange.Allotted (connectTimeout : Duration) (limit : Option Duration) (e : Exchange) : Prop :=
  (∃ host port, e.request = .connect host port ∧ e.patience = some connectTimeout) ∨
    (limit = none ∧ e.patience = none) ∨ ∃ timeout, Grantable timeout ∧ e.patience = some timeout

theorem connectPatience_grantable (connectTimeout : Duration) : Grantable (connectPatience connectTimeout) := by
  refine ⟨_, Nat.lt_of_lt_of_le Nat.zero_lt_one (Nat.le_max_right _ _), Nat.max_le.mpr ⟨?_, by decide⟩, rfl⟩
  exact Nat.min_le_right _ _

theorem Deadline.Admits.allotted {d : Deadline} {e : Exchange} (h : d.Admits e.patience) (connectTimeout : Duration) :
    e.Allotted connectTimeout d.limit := by
  unfold Deadline.Admits at h
  cases hlimit : d.limit with
  | none =>
    rw [hlimit] at h
    exact .inr (.inl ⟨rfl, h⟩)
  | some limit =>
    rw [hlimit] at h
    obtain ⟨n, hpos, hle, hpatience⟩ := h
    exact .inr (.inr ⟨_, ⟨n, hpos, hle, rfl⟩, hpatience⟩)

def Within (timeout : Duration) {α : Type} (x : Talk α) : Prop :=
  ∀ s, s.timeout = some timeout → (x.hold s).2.timeout = some timeout ∧
    ∀ e ∈ (x.hold s).2.exchanges, e ∈ s.exchanges ∨ e.patience = some timeout

section Within

variable {p : Peer} {timeout : Duration} {α β : Type} {x : Talk α}

theorem Within.bind {f : α → Talk β} (hx : Within timeout x) (hf : ∀ a, Within timeout (f a)) :
    Within timeout (x >>= f) := by
  intro s hs
  obtain ⟨htimeout, hadded⟩ := hx s hs
  rcases hr : x.hold s with ⟨e | a, t⟩
  all_goals rw [hr] at htimeout hadded
  · rw [Talk.hold_bind_error hr]
    exact ⟨htimeout, hadded⟩
  · rw [Talk.hold_bind_ok hr]
    obtain ⟨htimeout', hadded'⟩ := hf a t htimeout
    exact ⟨htimeout', fun e he ↦ (hadded' e he).elim (hadded e) .inr⟩

theorem Within.still (hx : ∀ s, (x.hold s).2 = s) : Within timeout x := by
  intro s hs
  rw [hx]
  exact ⟨hs, fun e he ↦ .inl he⟩

theorem Within.all {s : Session} (hx : Within timeout x) (hs : s.timeout = some timeout) {P : Exchange → Prop}
    (hbefore : ∀ e ∈ s.exchanges, P e) (hunder : ∀ e : Exchange, e.patience = some timeout → P e) :
    (∀ e ∈ (x.hold s).2.exchanges, P e) ∧ (x.hold s).2.timeout = some timeout := by
  obtain ⟨htimeout, hadded⟩ := hx s hs
  exact ⟨fun e he ↦ (hadded e he).elim (hbefore e) (hunder e), htimeout⟩

theorem demand_within (r : Request) (explain : String → Error) : Within timeout (Talk.demand p r explain) := by
  intro s hs
  rw [Talk.hold_demand]
  refine ⟨hs, fun e he ↦ ?_⟩
  rcases List.mem_cons.mp he with rfl | he
  · exact .inr hs
  · exact .inl he

theorem ask_within (r : Request) : Within timeout (Talk.ask p r) := by
  intro s hs
  rw [Talk.hold_ask, Talk.hold_converse]
  refine ⟨hs, fun e he ↦ ?_⟩
  rcases List.mem_cons.mp he with rfl | he
  · exact .inr hs
  · exact .inl he

end Within

section Session

variable {p : Peer} {connectTimeout : Duration} {t : Target} {command : String} {limit : Option Duration}

theorem dial_exchanges (p : Peer) (connectTimeout : Duration) (host : Address) (port : Nat) (s : Session) :
    ∃ e : Exchange, e.request = .connect host port ∧ e.patience = some connectTimeout ∧
      ((dial p connectTimeout host port).hold s).2.exchanges = e :: s.exchanges := by
  obtain ⟨after, result, hw, -⟩ := within?_some (p.answer (.connect host port :: s.requests)) connectTimeout
  refine ⟨exchangeOf (.connect host port) (Talk.paused p s).now (some connectTimeout)
    (p.answer (.connect host port :: s.requests)), rfl, rfl, ?_⟩
  simp only [dial, Talk.hold_bind, Talk.hold_converse, hw]
  rcases result with reason | ⟨⟩
  · rfl
  · by_cases hzero : connectTimeout.nanos = 0
    · simp only [if_pos hzero]
      rfl
    · simp only [if_neg hzero]
      rfl

/-- The connection has its own timeout, and what follows until a command has the one for connecting. -/
theorem dial_bind_allotted {x : Talk Unit} (hx : Within (connectPatience connectTimeout) x) (host : Address) (port : Nat)
    (opened : Except Error Unit) (limit : Option Duration) (s : Session) :
    let y := dial p connectTimeout host port >>= fun _ ↦ Talk.ofExcept opened >>= fun _ ↦
      Talk.setTimeout (some (connectPatience connectTimeout)) >>= fun _ ↦ x
    (∀ e ∈ (y.hold s).2.exchanges, e ∈ s.exchanges ∨ e.Allotted connectTimeout limit) ∧
      ((y.hold s).1 = .ok () → (y.hold s).2.timeout = some (connectPatience connectTimeout)) := by
  intro y
  obtain ⟨c, hrequest, hpatience, hdialled⟩ := dial_exchanges p connectTimeout host port s
  have hbefore : ∀ e ∈ ((dial p connectTimeout host port).hold s).2.exchanges,
      e ∈ s.exchanges ∨ e.Allotted connectTimeout limit := by
    intro e he
    rw [hdialled] at he
    rcases List.mem_cons.mp he with rfl | he
    · exact .inr (.inl ⟨_, _, hrequest, hpatience⟩)
    · exact .inl he
  rcases hdial : (dial p connectTimeout host port).hold s with ⟨e | ⟨⟩, u⟩
  all_goals rw [hdial] at hbefore
  · rw [Talk.hold_bind_error hdial]
    exact ⟨hbefore, fun h ↦ by cases h⟩
  · rw [Talk.hold_bind_ok hdial]
    rcases opened with e | ⟨⟩
    · exact ⟨hbefore, fun h ↦ by cases h⟩
    rw [Talk.hold_bind_ok (Talk.hold_ofExcept _ u), Talk.hold_bind_ok (Talk.hold_setTimeout _ u)]
    obtain ⟨hall, htimeout⟩ := hx.all (s := { u with timeout := some (connectPatience connectTimeout) }) rfl hbefore
      fun e he ↦ .inr (.inr (.inr ⟨_, connectPatience_grantable connectTimeout, he⟩))
    exact ⟨hall, fun _ ↦ htimeout⟩

theorem connect_allotted (p : Peer) (connectTimeout : Duration) (t : Target) (limit : Option Duration) (s : Session) :
    (∀ e ∈ ((connect p connectTimeout t).hold s).2.exchanges, e ∈ s.exchanges ∨ e.Allotted connectTimeout limit) ∧
      (((connect p connectTimeout t).hold s).1 = .ok () →
        ((connect p connectTimeout t).hold s).2.timeout = some (connectPatience connectTimeout)) := by
  rw [connect]
  cases t.credential.portFor t.host with
  | error e => exact ⟨fun e he ↦ .inl he, fun h ↦ by cases h⟩
  | ok port =>
    refine dial_bind_allotted ((demand_within _ _).bind fun _ ↦ ?_) t.host port _ limit s
    cases login? t.credential with
    | none => exact .still fun _ ↦ rfl
    | some login =>
      refine (demand_within _ _).bind fun _ ↦ .still fun _ ↦ ?_
      cases p.confirms <;> rfl

theorem exec_allotted (p : Peer) (t : Target) (command : String) {d : Deadline} {s : Session}
    (hs : d.started.nanos ≤ s.now.nanos) (connectTimeout : Duration) :
    ∀ e ∈ ((exec p t command d).hold s).2.exchanges, e ∈ s.exchanges ∨ e.Allotted connectTimeout d.limit := by
  intro e he
  obtain ⟨steps, hclocked, -⟩ := exec_clocked hs (Prod.eta ((exec p t command d).hold s)).symm
  rw [hclocked.noted] at he
  rcases List.mem_append.mp he with he | he
  · obtain ⟨moment, -, -, hset⟩ := (hclocked.timed e (List.mem_reverse.mp he)).armed
    exact .inr ((nextTimeout?_admitted hset).allotted connectTimeout)
  · exact .inl he

theorem sayGoodbye_within (p : Peer) (connectTimeout : Duration) (s : Session) :
    ∀ e ∈ ((sayGoodbye p connectTimeout).hold s).2.exchanges,
      e ∈ s.exchanges ∨ e.patience = some (connectPatience connectTimeout) := by
  rw [sayGoodbye, Talk.hold_bind_ok (Talk.hold_setTimeout _ s)]
  exact (ask_within .disconnect { s with timeout := some (connectPatience connectTimeout) } rfl).2

theorem serve_allotted {d : Deadline} {s : Session} (hs : d.started.nanos ≤ s.now.nanos) (connectTimeout : Duration) :
    ∀ e ∈ ((serve p connectTimeout t command d.limit d).hold s).2.exchanges,
      e ∈ s.exchanges ∨ e.Allotted connectTimeout d.limit := by
  have hcommand := exec_allotted p t command hs connectTimeout
  have hattempt := Talk.hold_attempt (exec p t command d) s
  rcases hexec : (exec p t command d).hold s with ⟨r, u⟩
  rw [hexec] at hattempt hcommand
  have hend {outcome : Except Error Output} (h : (Talk.attempt (exec p t command d)).hold s = (.ok outcome, u)) :
      ∀ e ∈ ((serve p connectTimeout t command d.limit d).hold s).2.exchanges,
        e ∈ s.exchanges ∨ e.Allotted connectTimeout d.limit := by
    obtain ⟨judged, w, hjudge, hquiet, -⟩ :=
      judge_quiet (p := p) (d := d) (.commandTimeout t.host command (d.limit.getD .zero)) outcome u
    obtain ⟨_, _, v, hbye, -, -⟩ := goodbye_said p connectTimeout w
    have hadded := sayGoodbye_within p connectTimeout w
    rw [serve, Talk.hold_bind_ok h, Talk.hold_bind_ok hjudge, Talk.hold_bind_ok hbye, Talk.hold_ofExcept]
    rw [hbye, hquiet] at hadded
    intro e he
    rcases hadded e he with he | he
    · exact hcommand e he
    · exact .inr (.inr (.inr ⟨_, connectPatience_grantable connectTimeout, he⟩))
  rcases r with (reason | ⟨⟩) | output
  · exact hend hattempt
  · rw [serve, Talk.hold_bind_error hattempt]
    exact hcommand
  · exact hend hattempt

/-- Every request of a session for a command may take the time that is allotted to it, and so may every request of one
that only tries whether a host can be reached. -/
theorem run_allotted (p : Peer) (connectTimeout : Duration) (t : Target) (command : String) (limit : Option Duration) :
    ∀ e ∈ ((run p connectTimeout t command limit).hold .start).2.exchanges, e.Allotted connectTimeout limit := by
  intro e he
  rw [run_eq, Talk.hold_bind_ok (Talk.hold_clock p .start)] at he
  set begun := Talk.paused p .start
  have hstart : begun.exchanges = [] := rfl
  obtain ⟨hconnect, -⟩ := connect_allotted p connectTimeout t limit begun
  have honward := connect_onward p connectTimeout t begun
  rcases hc : (connect p connectTimeout t).hold begun with ⟨f | ⟨⟩, s⟩
  all_goals rw [hc] at hconnect honward
  · rw [Talk.hold_bind_error hc] at he
    exact (hconnect e he).resolve_left (by simp [hstart])
  · rw [Talk.hold_bind_ok hc] at he
    rcases serve_allotted (d := ⟨limit, begun.now⟩) honward connectTimeout e he with he | he
    · exact (hconnect e he).resolve_left (by simp [hstart])
    · exact he

theorem ping_allotted (p : Peer) (connectTimeout : Duration) (t : Target) (limit : Option Duration) :
    ∀ e ∈ ((ping p connectTimeout t).hold .start).2.exchanges, e.Allotted connectTimeout limit := by
  intro e he
  have hstart : Session.start.exchanges = [] := rfl
  obtain ⟨hconnect, hleft⟩ := connect_allotted p connectTimeout t limit .start
  rw [ping] at he
  rcases hc : (connect p connectTimeout t).hold .start with ⟨f | ⟨⟩, s⟩
  all_goals rw [hc] at hconnect hleft
  · rw [Talk.hold_bind_error hc] at he
    exact (hconnect e he).resolve_left (by simp [hstart])
  · rw [Talk.hold_bind_ok hc] at he
    refine (Within.all (Within.bind (ask_within .disconnect) fun result ↦ .still fun _ ↦ ?_) (hleft rfl)
      (fun e he ↦ (hconnect e he).resolve_left (by simp [hstart])) fun e he ↦ ?_).1 e he
    · rcases result with reason | ⟨⟩ <;> rfl
    · exact .inr (.inr ⟨_, connectPatience_grantable connectTimeout, he⟩)

end Session

end SelfHealing.Ssh
