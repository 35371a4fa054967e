import SelfHealing.Proofs.Ssh.Limit

/-!
The order of a session. Main statement: whatever the other end does, the requests of a session are taken from its
agenda in order, nothing but a refused variable is passed over, and a session that has logged in says goodbye at its
end.
-/

namespace SelfHealing.Ssh

open Command Net Text Time

section Connect

variable {p : Peer} {connectTimeout : Duration} {t : Target} {port : Nat} {s : Session}

/-- How far connecting comes, and what it gives. -/
inductive Connecting (p : Peer) (t : Target) (port : Nat) : List Exchange → Except Failure Unit → Prop
  | unreached {c : Exchange} (reason : String) : c.request = .connect t.host port → c.reply ≠ none →
      Connecting p t port [c]
        (.error (.error (.connection t.host s!"failed to connect {t.host.withPort port}: {reason}")))
  | unopened {c : Exchange} (reason : String) : c.request = .connect t.host port → c.Succeeded →
      p.session = .error reason →
      Connecting p t port [c] (.error (.error (.connection t.host s!"failed to create ssh session: {reason}")))
  | unshaken {c h : Exchange} (reason : String) : c.request = .connect t.host port → c.Succeeded →
      h.request = .handshake → h.Refused reason →
      Connecting p t port [c, h] (.error (.error (.connection t.host s!"ssh handshake failed: {reason}")))
  | anonymous {c h : Exchange} : c.request = .connect t.host port → c.Succeeded → h.request = .handshake →
      h.Succeeded → login? t.credential = none →
      Connecting p t port [c, h]
        (.error (.error (.invalidCredential t.host "neither password nor private key configured")))
  | refused {c h a : Exchange} (login : Login) (reason : String) : c.request = .connect t.host port → c.Succeeded →
      h.request = .handshake → h.Succeeded → login? t.credential = some login →
      a.request = .authenticate t.credential.effectiveUser login → a.Refused reason →
      Connecting p t port [c, h, a] (.error (.error (.connection t.host s!"{login.failed}: {reason}")))
  | unconfirmed {c h a : Exchange} (login : Login) : c.request = .connect t.host port → c.Succeeded →
      h.request = .handshake → h.Succeeded → login? t.credential = some login →
      a.request = .authenticate t.credential.effectiveUser login → a.Succeeded → p.confirms = false →
      Connecting p t port [c, h, a]
        (.error (.error (.connection t.host s!"authentication failed for user {t.credential.effectiveUser}")))
  | admitted {c h a : Exchange} (login : Login) : c.request = .connect t.host port → c.Succeeded →
      h.request = .handshake → h.Succeeded → login? t.credential = some login →
      a.request = .authenticate t.credential.effectiveUser login → a.Succeeded → p.confirms = true →
      Connecting p t port [c, h, a] (.ok ())

theorem dial_cases (p : Peer) (connectTimeout : Duration) (t : Target) (port : Nat) (s : Session) :
    ∃ e u, e.request = .connect t.host port ∧ u.exchanges = e :: s.exchanges ∧ e.reply ≠ none ∧
      (e.Succeeded ∧ (dial p connectTimeout t.host port).hold s = (.ok (), u) ∨
        ∃ reason : String, (dial p connectTimeout t.host port).hold s =
          (.error (.error (.connection t.host s!"failed to connect {t.host.withPort port}: {reason}")), u)) := by
  set e := exchangeOf (.connect t.host port) (Talk.paused p s).now (some connectTimeout)
    (p.answer (.connect t.host port :: s.requests)) with he
  refine ⟨e, Talk.noted e (Talk.paused p s), rfl, rfl, ?_⟩
  obtain ⟨after, result, hw, -⟩ := within?_some (p.answer (.connect t.host port :: s.requests)) connectTimeout
  -- An accepted connection can still fail: its socket takes no timeout of zero.
  refine ⟨by simp [he, exchangeOf, hw], ?_⟩
  simp only [dial, Talk.hold_bind, Talk.hold_converse, hw]
  rcases result with reason | ⟨⟩
  · exact .inr ⟨reason, rfl⟩
  · by_cases hzero : connectTimeout.nanos = 0
    · simp only [if_pos hzero]
      exact .inr ⟨"cannot set a 0 duration timeout", rfl⟩
    · simp only [if_neg hzero]
      exact .inl ⟨exchangeOf_succeeded hw, rfl⟩

theorem connect_cases (p : Peer) (connectTimeout : Duration) (hport : t.credential.portFor t.host = .ok port)
    (s : Session) : ∃ steps r u, (connect p connectTimeout t).hold s = (r, u) ∧
      u.exchanges = steps.reverse ++ s.exchanges ∧ Connecting p t port steps r := by
  simp only [connect, hport]
  obtain ⟨c, u, hc, hu, hreplied, ⟨hdialled, hdial⟩ | ⟨reason, hdial⟩⟩ :=
    dial_cases p connectTimeout t port s
  · rw [Talk.hold_bind_ok hdial]
    rcases hsession : p.session with reason | ⟨⟩
    · exact ⟨[c], _, u, rfl, hu, .unopened reason hc hdialled hsession⟩
    rw [Talk.hold_bind_ok (Talk.hold_ofExcept _ u), Talk.hold_bind_ok (Talk.hold_setTimeout _ u)]
    obtain ⟨h, hh, -, ⟨hshaken, hshake⟩ | ⟨reason, hrefused, hshake⟩ | ⟨hpatience, -⟩⟩ :=
      Talk.demand_cases p .handshake (fun reason ↦ .connection t.host s!"ssh handshake failed: {reason}")
        { u with timeout := some (connectPatience connectTimeout) }
    · rw [Talk.hold_bind_ok hshake]
      rcases hlogin : login? t.credential with _ | login
      · exact ⟨[c, h], _, _, rfl, by simp [hu], .anonymous hc hdialled hh hshaken hlogin⟩
      · obtain ⟨a, ha, -, ⟨hadmitted, hauth⟩ | ⟨reason, hrefused, hauth⟩ | ⟨hpatience, -⟩⟩ :=
          Talk.demand_cases p (.authenticate t.credential.effectiveUser login)
            (fun reason ↦ .connection t.host s!"{login.failed}: {reason}") _
        · rw [Talk.hold_bind_ok hauth]
          rcases hconfirms : p.confirms with _ | _
          · exact ⟨[c, h, a], _, _, rfl, by simp [hu],
              .unconfirmed login hc hdialled hh hshaken hlogin ha hadmitted hconfirms⟩
          · exact ⟨[c, h, a], _, _, rfl, by simp [hu],
              .admitted login hc hdialled hh hshaken hlogin ha hadmitted hconfirms⟩
        · rw [Talk.hold_bind_error hauth]
          exact ⟨[c, h, a], _, _, rfl, by simp [hu],
            .refused login reason hc hdialled hh hshaken hlogin ha hrefused⟩
        · simp at hpatience
    · rw [Talk.hold_bind_error hshake]
      exact ⟨[c, h], _, _, rfl, by simp [hu], .unshaken reason hc hdialled hh hrefused⟩
    · simp at hpatience
  · rw [Talk.hold_bind_error hdial]
    exact ⟨[c], _, u, rfl, hu, .unreached reason hc hreplied⟩

/-- A login was accepted, and the session counts as logged in. -/
def Authenticated (p : Peer) (steps : List Exchange) : Prop :=
  p.confirms = true ∧ ∃ e ∈ steps, (∃ user login, e.request = .authenticate user login) ∧ e.Succeeded

def opening (t : Target) (port : Nat) : List Request :=
  .connect t.host port :: .handshake ::
    (login? t.credential).toList.map (.authenticate t.credential.effectiveUser)

def Request.usesChannel : Request → Bool
  | openChannel | setVariable .. | exec _ | read | awaitClose => true
  | connect .. | handshake | authenticate .. | disconnect => false

namespace Connecting

variable {steps : List Exchange} {r : Except Failure Unit}

theorem asked (hc : Connecting p t port steps r) : steps.map (·.request) <+: opening t port := by
  cases hc with
  | unreached _ h | unopened _ h => simp [opening, h]
  | unshaken _ h _ h' => simp [opening, h, h']
  | anonymous h _ h' => simp [opening, h, h']
  | refused login _ h _ h' _ hlogin ha => simp [opening, h, h', hlogin, ha]
  | unconfirmed login h _ h' _ hlogin ha | admitted login h _ h' _ hlogin ha => simp [opening, h, h', hlogin, ha]

theorem error {f : Failure} (hc : Connecting p t port steps (.error f)) : ∃ e, f = .error e := by
  cases hc <;> exact ⟨_, rfl⟩

theorem passed (hc : Connecting p t port steps r) : ∀ e ∈ steps.dropLast, e.Succeeded := by
  cases hc <;> simp_all

theorem replied (hc : Connecting p t port steps r) : ∀ e ∈ steps, e.reply ≠ none := by
  cases hc with
  | unreached _ _ h => simpa using h
  | unopened _ _ h => simpa using h.replied
  | unshaken _ _ h _ h' => simpa using ⟨h.replied, h'.replied⟩
  | anonymous _ h _ h' => simpa using ⟨h.replied, h'.replied⟩
  | refused _ _ _ h _ h' _ _ ha => simpa using ⟨h.replied, h'.replied, ha.replied⟩
  | unconfirmed _ _ h _ h' _ _ ha | admitted _ _ h _ h' _ _ ha => simpa using ⟨h.replied, h'.replied, ha.replied⟩

theorem complete (hc : Connecting p t port steps r) (hr : r = .ok ()) :
    steps.map (·.request) = opening t port ∧ ∀ e ∈ steps, e.Succeeded := by
  cases hc with
  | admitted login h hs h' hs' hlogin ha has => simp [opening, h, h', hlogin, ha, hs, hs', has]
  | _ => simp at hr

theorem quiet (hc : Connecting p t port steps r) {e : Exchange} (he : e ∈ steps) : e.request.usesChannel = false := by
  have hmem : e.request ∈ opening t port := hc.asked.subset (List.mem_map_of_mem he)
  simp only [opening, List.mem_cons, List.mem_map] at hmem
  rcases hmem with h | h | ⟨login, -, h⟩
  · rw [h]; rfl
  · rw [h]; rfl
  · rw [← h]; rfl

theorem authenticated_iff (hc : Connecting p t port steps r) : Authenticated p steps ↔ r = .ok () := by
  cases hc with
  | unreached _ h | unopened _ h => simp [Authenticated, h]
  | unshaken _ h _ h' => simp [Authenticated, h, h']
  | anonymous h _ h' => simp [Authenticated, h, h']
  | refused _ _ h _ h' _ _ ha har => simp [Authenticated, h, h', ha, har.not_succeeded]
  | unconfirmed _ _ _ _ _ _ _ _ hconfirms => simp [Authenticated, hconfirms]
  | admitted _ h _ h' _ _ ha has hconfirms => simp [Authenticated, h, h', ha, has, hconfirms]

theorem shaken (hc : Connecting p t port steps r) (hs : ∃ e ∈ steps, e.request = .handshake ∧ e.Succeeded) :
    (login? t.credential = none ∧
        r = .error (.error (.invalidCredential t.host "neither password nor private key configured"))) ∨
      ∃ login, login? t.credential = some login ∧
        ∃ a ∈ steps, a.request = .authenticate t.credential.effectiveUser login := by
  obtain ⟨e, he, hr, hs⟩ := hs
  cases hc with
  | unreached _ h | unopened _ h =>
    obtain rfl := List.mem_singleton.mp he
    simp [h] at hr
  | unshaken _ h _ h' hrefused =>
    rcases List.mem_pair.mp he with rfl | rfl
    · simp [h] at hr
    · exact absurd hs hrefused.not_succeeded
  | anonymous _ _ _ _ hnone => exact .inl ⟨hnone, rfl⟩
  | refused login _ _ _ _ _ hlogin ha => exact .inr ⟨login, hlogin, _, by simp, ha⟩
  | unconfirmed login _ _ _ _ hlogin ha | admitted login _ _ _ _ hlogin ha =>
    exact .inr ⟨login, hlogin, _, by simp, ha⟩

end Connecting

end Connect

section Command

variable {p : Peer} {t : Target} {command : String} {d : Deadline}

theorem exec_ends {limit : Duration} (hlimit : d.limit = some limit) (s : Session) :
    ((exec p t command d).hold s).1 ≠ .error .endless := by
  set most := max (t.environment.length + 2) (mostReads (p.reaction command).output) with hmost
  set bound := s.now.nanos + (d.started.nanos + most * limit.nanos) with hbound
  have hwaits {n : Nat} (h : n ≤ most) : d.started.nanos + n * limit.nanos ≤ bound := by
    have hn := Nat.mul_le_mul_right limit.nanos h
    omega
  have hs : InTime p s.steps bound s := ⟨Nat.le_refl _, by omega⟩
  exact (exec_endsInTime t command hlimit (hwaits (Nat.le_max_left _ _)) (hwaits (Nat.le_max_right _ _)) hs).1

theorem setVariables_result (bs : List Binding) (s : Session) :
    ((setVariables p bs).hold s).1 = .ok () ∨ ((setVariables p bs).hold s).1 = .error .endless := by
  induction bs generalizing s with
  | nil => exact .inl rfl
  | cons b rest ih =>
    rw [setVariables]
    rcases ha : (Talk.ask p (.setVariable b.key b.value)).hold s with ⟨e | result, u⟩
    · rw [Talk.hold_bind_error ha]
      rw [Talk.hold_ask, Talk.hold_converse] at ha
      split at ha <;> simp_all
    · rw [Talk.hold_bind_ok ha]
      exact ih u

theorem execPrepared_asks (p : Peer) (t : Target) (command : String) (d : Deadline) (s : Session) :
    ∃ e more, ((execPrepared p t command d).hold s).2.exchanges = more ++ e :: s.exchanges ∧
      e.request = .exec command := by
  rw [execPrepared]
  obtain ⟨e, he, -, ⟨-, h⟩ | ⟨reason, -, h⟩ | ⟨-, -, h⟩⟩ :=
    Talk.demand_cases p (.exec command) (channelFailed t.host) s
  · rw [Talk.hold_bind_ok h]
    obtain ⟨more, hmore, -⟩ := collect_keeps p t command d (Talk.noted e (Talk.paused p s))
    exact ⟨e, more.reverse, hmore, he⟩
  · rw [Talk.hold_bind_error h]
    exact ⟨e, [], rfl, he⟩
  · rw [Talk.hold_bind_error h]
    exact ⟨e, [], rfl, he⟩

/-- Once there is a channel, the command is asked for, whatever has come of the variables. -/
theorem exec_reaches {s : Session} {steps : List Exchange}
    (hsteps : ((exec p t command d).hold s).2.exchanges = steps.reverse ++ s.exchanges)
    (hopen : ∃ e ∈ steps, e.request = .openChannel ∧ e.Succeeded)
    (hend : ((exec p t command d).hold s).1 ≠ .error .endless) : ∃ e ∈ steps, e.request = .exec command := by
  obtain ⟨o, ho, -, hs⟩ := hopen
  rw [exec_eq] at hsteps hend
  have hquiet := arm_exchanges p t.host d s
  rcases harm : (arm p t.host d).hold s with ⟨f | ⟨⟩, u⟩
  all_goals
    rw [harm] at hquiet
    simp only at hquiet
  · rw [Talk.hold_bind_error harm, hquiet, List.self_eq_append_left, List.reverse_eq_nil_iff] at hsteps
    simp [hsteps] at ho
  · rw [Talk.hold_bind_ok harm] at hsteps hend
    obtain ⟨e, -, -, ⟨-, hopen⟩ | ⟨reason, hrefused, hopen⟩ | ⟨-, hnone, hopen⟩⟩ :=
      Talk.demand_cases p .openChannel (channelFailed t.host) u
    · rw [Talk.hold_bind_ok hopen] at hsteps hend
      obtain ⟨front, hfront, -⟩ := setVariables_keeps (p := p) t.environment (Talk.noted e (Talk.paused p u))
      have hresult := setVariables_result (p := p) t.environment (Talk.noted e (Talk.paused p u))
      rcases hset : (setVariables p t.environment).hold (Talk.noted e (Talk.paused p u)) with ⟨f | ⟨⟩, v⟩
      all_goals rw [hset] at hfront hresult
      · rw [Talk.hold_bind_error hset] at hend
        simp_all
      · rw [Talk.hold_bind_ok hset] at hsteps
        obtain ⟨x, more, hmore, hx⟩ := execPrepared_asks p t command d v
        have hall : steps.reverse = more ++ x :: (front.reverse ++ [e]) := by
          refine (List.append_left_inj s.exchanges).mp ?_
          rw [← hsteps, hmore, hfront]
          simp [hquiet]
        have hmem : x ∈ steps.reverse := by simp [hall]
        exact ⟨x, List.mem_reverse.mp hmem, hx⟩
    -- Otherwise the channel is all that was asked for, and there is none.
    all_goals
      rw [Talk.hold_bind_error hopen] at hsteps
      have hlone : steps.reverse = [e] := by
        refine (List.append_left_inj s.exchanges).mp ?_
        rw [← hsteps]
        simp [hquiet]
      obtain rfl : o = e := by
        have hmem := List.mem_reverse.mpr ho
        simpa [hlone] using hmem
    · exact absurd hs hrefused.not_succeeded
    · exact absurd hnone hs.replied

end Command

section Run

variable {p : Peer} {connectTimeout : Duration} {t : Target} {command : String} {limit : Option Duration} {d : Deadline}

def serve (p : Peer) (connectTimeout : Duration) (t : Target) (command : String) (limit : Option Duration)
    (d : Deadline) : Talk Output := do
  let result ← Talk.attempt (exec p t command d)
  let result ← judge p d (.commandTimeout t.host command (limit.getD .zero)) result
  let _ ← sayGoodbye p connectTimeout
  Talk.ofExcept result

theorem run_eq : run p connectTimeout t command limit = (do
    let now ← Talk.clock p
    connect p connectTimeout t
    serve p connectTimeout t command limit ⟨limit, now⟩) := rfl

def reviewed (d : Deadline) (decided : Instant) (late : Error) : Except Failure Output → Except Failure Output
  | .error (.error e) => .error (.error (if d.isOver decided then late else e))
  | r => r

theorem reviewed_eq_ok {decided : Instant} {late : Error} {r : Except Failure Output} {output : Output} :
    reviewed d decided late r = .ok output ↔ r = .ok output := by
  rcases r with (e | ⟨⟩) | output <;> simp [reviewed]

theorem reviewed_eq_endless {decided : Instant} {late : Error} {r : Except Failure Output} :
    reviewed d decided late r = .error .endless ↔ r = .error .endless := by
  rcases r with (e | ⟨⟩) | output <;> simp [reviewed]

theorem judge_quiet (late : Error) (r : Except Error Output) (s : Session) :
    ∃ judged u, (judge p d late r).hold s = (.ok judged, u) ∧ u.exchanges = s.exchanges ∧
      judged.mapError .error = reviewed d (Talk.paused p s).now late (r.mapError .error) := by
  rcases r with e | output
  · exact ⟨.error (if d.isOver (Talk.paused p s).now then late else e), Talk.paused p s, rfl, rfl, rfl⟩
  · exact ⟨.ok output, s, rfl, rfl, rfl⟩

theorem goodbye_said (p : Peer) (connectTimeout : Duration) (s : Session) :
    ∃ e r u, (sayGoodbye p connectTimeout).hold s = (.ok r, u) ∧ u.exchanges = e :: s.exchanges ∧
      e.request = .disconnect := by
  set armed : Session := { s with timeout := some (connectPatience connectTimeout) } with harmed
  obtain ⟨e, r, he, h⟩ := Talk.ask_answered p .disconnect (s := armed) rfl
  refine ⟨e, r, Talk.noted e (Talk.paused p armed), ?_, rfl, he⟩
  rw [sayGoodbye, Talk.hold_bind_ok (Talk.hold_setTimeout _ s), h]

/-- A session that has logged in says goodbye, unless the command holds it up for ever. -/
theorem serve_said (connectTimeout : Duration) (limit : Option Duration) {s u : Session} {r : Except Failure Output}
    (hexec : (exec p t command d).hold s = (r, u)) :
    r = .error .endless ∧ (serve p connectTimeout t command limit d).hold s = (.error .endless, u) ∨
      r ≠ .error .endless ∧ ∃ e v, (serve p connectTimeout t command limit d).hold s =
          (reviewed d (Talk.paused p u).now (.commandTimeout t.host command (limit.getD .zero)) r, v) ∧
        v.exchanges = e :: u.exchanges ∧ e.request = .disconnect := by
  have hattempt := Talk.hold_attempt (exec p t command d) s
  rw [hexec] at hattempt
  -- Whatever the command has come to, once it has ended.
  have hend {outcome : Except Error Output} (h : (Talk.attempt (exec p t command d)).hold s = (.ok outcome, u)) :
      ∃ e v, (serve p connectTimeout t command limit d).hold s =
          (reviewed d (Talk.paused p u).now (.commandTimeout t.host command (limit.getD .zero))
            (outcome.mapError .error), v) ∧ v.exchanges = e :: u.exchanges ∧ e.request = .disconnect := by
    obtain ⟨judged, w, hjudge, hquiet, hreviewed⟩ :=
      judge_quiet (p := p) (d := d) (.commandTimeout t.host command (limit.getD .zero)) outcome u
    obtain ⟨e, _, v, hbye, hv, he⟩ := goodbye_said p connectTimeout w
    refine ⟨e, v, ?_, by rw [hv, hquiet], he⟩
    rw [serve, Talk.hold_bind_ok h, Talk.hold_bind_ok hjudge, Talk.hold_bind_ok hbye, Talk.hold_ofExcept, hreviewed]
  rcases r with (reason | ⟨⟩) | output
  · exact .inr ⟨by simp, hend hattempt⟩
  · exact .inl ⟨rfl, Talk.hold_bind_error hattempt _⟩
  · exact .inr ⟨by simp, hend hattempt⟩

theorem serve_cases (connectTimeout : Duration) (limit : Option Duration) {s u : Session}
    {r : Except Failure Output} (hexec : (exec p t command d).hold s = (r, u)) :
    (r = .error .endless ∧ (serve p connectTimeout t command limit d).hold s = (.error .endless, u)) ∨
      ∃ e result v, (serve p connectTimeout t command limit d).hold s = (result, v) ∧
        v.exchanges = e :: u.exchanges ∧ e.request = .disconnect ∧ result ≠ .error .endless ∧
          ∀ output, result = .ok output ↔ r = .ok output := by
  rcases serve_said connectTimeout limit hexec with hendless | ⟨hend, e, v, hserve, hv, he⟩
  · exact .inl hendless
  · exact .inr ⟨e, _, v, hserve, hv, he, fun h ↦ hend (reviewed_eq_endless.mp h), fun _ ↦ reviewed_eq_ok⟩

end Run

def agenda (t : Target) (port : Nat) (command : String) (reads : Nat) : List Request :=
  opening t port ++ commandAgenda t command reads

/-- A session in order: the requests before its goodbye, the goodbye and the result. -/
structure Orderly (p : Peer) (t : Target) (port : Nat) (command : String) (limit : Option Duration)
    (result : Except Failure Output) (steps goodbye : List Exchange) : Prop where
  asked : ∃ reads, steps.map (·.request) <+: agenda t port command reads
  /-- Only a variable may be refused before another request. -/
  passed : ∀ e ∈ steps.dropLast, e.Passed
  finished : ∀ output, result = .ok output → ∃ reads, steps.map (·.request) = agenda t port command reads
  identified : ∀ e ∈ steps, ∀ user login, e.request = .authenticate user login →
    user = t.credential.effectiveUser ∧
      (t.credential.keyPath ≠ "" ∧ login = .keyFile t.credential.keyPath t.credential.keyPassphrase ∨
        t.credential.keyPath = "" ∧ t.credential.password ≠ "" ∧ login = .password t.credential.password)
  attempted : (∃ e ∈ steps, e.request = .handshake ∧ e.Succeeded) →
    t.credential.keyPath ≠ "" ∨ t.credential.password ≠ "" →
      ∃ e ∈ steps, ∃ login, e.request = .authenticate t.credential.effectiveUser login
  anonymous : (∃ e ∈ steps, e.request = .handshake ∧ e.Succeeded) →
    t.credential.keyPath = "" → t.credential.password = "" →
      result = .error (.error (.invalidCredential t.host "neither password nor private key configured"))
  admitted : ∀ front e back, steps = front ++ e :: back → e.request.usesChannel = true → Authenticated p front
  executed : (∃ e ∈ steps, e.request = .openChannel ∧ e.Succeeded) → (∀ e ∈ steps, e.reply ≠ none) →
    ∃ e ∈ steps, e.request = .exec command
  /-- Only without a limit a session may never end, and then its last request is never answered. -/
  endless : result = .error .endless →
    limit = none ∧ Authenticated p steps ∧ ∃ e, steps.getLast? = some e ∧ e.reply = none
  farewell : Authenticated p steps → result ≠ .error .endless → ∃ e, goodbye = [e] ∧ e.request = .disconnect
  parted : ¬Authenticated p steps ∨ result = .error .endless → goodbye = []

section Order

variable {p : Peer} {t : Target} {port : Nat} {command : String} {limit : Option Duration} {steps : List Exchange}

theorem login?_eq_some {c : Credential} {login : Login} :
    login? c = some login ↔ c.keyPath ≠ "" ∧ login = .keyFile c.keyPath c.keyPassphrase ∨
      c.keyPath = "" ∧ c.password ≠ "" ∧ login = .password c.password := by
  by_cases hkey : c.keyPath = ""
  · by_cases hpassword : c.password = "" <;> simp [login?, hkey, hpassword, @eq_comm _ login]
  · simp [login?, hkey, @eq_comm _ login]

theorem login?_eq_none {c : Credential} : login? c = none ↔ c.keyPath = "" ∧ c.password = "" := by
  by_cases hkey : c.keyPath = ""
  · by_cases hpassword : c.password = "" <;> simp [login?, hkey, hpassword]
  · simp [login?, hkey]

theorem identified_of_asked {reads : Nat} (hasked : steps.map (·.request) <+: agenda t port command reads)
    {e : Exchange} (he : e ∈ steps) {user : String} {login : Login} (hr : e.request = .authenticate user login) :
    user = t.credential.effectiveUser ∧ login? t.credential = some login := by
  have hmem : e.request ∈ agenda t port command reads := hasked.subset (List.mem_map_of_mem he)
  rw [hr] at hmem
  simp [agenda, opening, commandAgenda, variableRequest, List.mem_replicate] at hmem
  exact ⟨hmem.2.symm, hmem.1⟩

variable {r : Except Failure Unit} {more : List Exchange}

theorem Connecting.attempted (hc : Connecting p t port steps r) (hs : ∃ e ∈ steps, e.request = .handshake ∧ e.Succeeded)
    (hsome : t.credential.keyPath ≠ "" ∨ t.credential.password ≠ "") :
    ∃ e ∈ steps, ∃ login, e.request = .authenticate t.credential.effectiveUser login := by
  rcases hc.shaken hs with ⟨hnone, -⟩ | ⟨login, -, e, he, hr⟩
  · obtain ⟨hkey, hpassword⟩ := login?_eq_none.mp hnone
    simp [hkey, hpassword] at hsome
  · exact ⟨e, he, login, hr⟩

theorem Connecting.unidentified (hc : Connecting p t port steps r)
    (hs : ∃ e ∈ steps, e.request = .handshake ∧ e.Succeeded) (hkey : t.credential.keyPath = "")
    (hpassword : t.credential.password = "") :
    r = .error (.error (.invalidCredential t.host "neither password nor private key configured")) := by
  rcases hc.shaken hs with ⟨-, hr⟩ | ⟨login, hlogin, -⟩
  · exact hr
  · simp [login?_eq_none.mpr ⟨hkey, hpassword⟩] at hlogin

theorem orderly_unconnected {e : Error} (hc : Connecting p t port steps (.error (.error e))) :
    Orderly p t port command limit (.error (.error e)) steps [] where
  asked := ⟨0, hc.asked.trans (List.prefix_append _ _)⟩
  passed e he := .inl (hc.passed e he)
  finished _ h := by simp at h
  identified e he user login hr := by
    have hasked : steps.map (·.request) <+: agenda t port command 0 := hc.asked.trans (List.prefix_append _ _)
    obtain ⟨huser, hlogin⟩ := identified_of_asked hasked he hr
    exact ⟨huser, login?_eq_some.mp hlogin⟩
  attempted := hc.attempted
  anonymous hs hkey hpassword := by simpa using hc.unidentified hs hkey hpassword
  admitted front e back hsteps hr := by
    have he : e ∈ steps := by simp [hsteps]
    simp [hc.quiet he] at hr
  executed hopen _ := by
    obtain ⟨e, he, hr, -⟩ := hopen
    have hquiet := hc.quiet he
    simp [hr, Request.usesChannel] at hquiet
  endless h := by simp at h
  farewell h := by simp [hc.authenticated_iff] at h
  parted _ := rfl

theorem Authenticated.append (h : Authenticated p steps) (more : List Exchange) : Authenticated p (steps ++ more) := by
  obtain ⟨hconfirms, e, he, h⟩ := h
  exact ⟨hconfirms, e, List.mem_append_left _ he, h⟩

theorem orderly_served {r : Except Failure Output} {result : Except Failure Output} {goodbye : List Exchange}
    (hc : Connecting p t port steps (.ok ())) (hu : Upholds (commandPlan t command) r more)
    (hreach : (∃ e ∈ more, e.request = .openChannel ∧ e.Succeeded) → r ≠ .error .endless →
      ∃ e ∈ more, e.request = .exec command)
    (hlimit : r = .error .endless → limit = none)
    (hbye : (r = .error .endless ∧ result = .error .endless ∧ goodbye = []) ∨
      ∃ e, goodbye = [e] ∧ e.request = .disconnect ∧ result ≠ .error .endless ∧
        ∀ output, result = .ok output ↔ r = .ok output) :
    Orderly p t port command limit result (steps ++ more) goodbye := by
  obtain ⟨hopening, hsucceeded⟩ := hc.complete rfl
  have hauth : Authenticated p steps := hc.authenticated_iff.mpr rfl
  have hasked : ∃ reads, (steps ++ more).map (·.request) <+: agenda t port command reads := by
    obtain ⟨_, ⟨reads, rfl⟩, hprefix⟩ := hu.asked
    refine ⟨reads, ?_⟩
    rw [List.map_append, hopening, agenda]
    exact (List.prefix_append_right_inj _).mpr hprefix
  obtain ⟨reads, hprefix⟩ := id hasked
  obtain ⟨-, a, ha, ⟨user, login, hr⟩, -⟩ := id hauth
  obtain ⟨rfl, hlogin⟩ := identified_of_asked hprefix (List.mem_append_left _ ha) hr
  refine ⟨hasked, fun e he ↦ ?passed, fun output ho ↦ ?finished, fun e he user login hr ↦ ?identified,
    fun _ _ ↦ ⟨a, List.mem_append_left _ ha, login, hr⟩, fun _ hkey hpassword ↦ ?anonymous,
    fun front e back hsteps hr ↦ ?admitted, fun hopen hreplied ↦ ?executed, fun hend ↦ ?endless,
    fun _ hend ↦ ?farewell, fun h ↦ ?parted⟩
  case passed =>
    by_cases hnil : more = []
    · rw [hnil, List.append_nil] at he
      exact .inl (hsucceeded e (List.mem_of_mem_dropLast he))
    · rw [List.dropLast_append_of_ne_nil hnil] at he
      exact (List.mem_append.mp he).elim (fun h ↦ .inl (hsucceeded e h)) (hu.passed e)
  case finished =>
    rcases hbye with ⟨-, rfl, -⟩ | ⟨e, -, -, -, hok⟩
    · simp at ho
    · obtain ⟨⟨reads, hplan⟩, -⟩ := hu.complete output ((hok output).mp ho)
      exact ⟨reads, by rw [List.map_append, hopening, hplan, agenda]⟩
  case identified =>
    obtain ⟨huser, hlogin⟩ := identified_of_asked hprefix he hr
    exact ⟨huser, login?_eq_some.mp hlogin⟩
  case anonymous => simp [login?_eq_none.mpr ⟨hkey, hpassword⟩] at hlogin
  case admitted =>
    -- A request that needs a channel is none of the connection, so that the whole connection is before it.
    rcases List.append_eq_append_iff.mp hsteps with ⟨rest, rfl, -⟩ | ⟨rest, hfront, hback⟩
    · exact hauth.append rest
    · rcases rest with _ | ⟨x, rest⟩
      · rw [List.append_nil] at hfront
        exact hfront ▸ hauth
      · have he : e ∈ steps := by
          obtain ⟨rfl, -⟩ := List.cons.inj hback
          simp [hfront]
        simp [hc.quiet he] at hr
  case executed =>
    have hopen' : ∃ e ∈ more, e.request = .openChannel ∧ e.Succeeded := by
      obtain ⟨e, he, hr, hs⟩ := hopen
      refine ⟨e, (List.mem_append.mp he).resolve_left fun h ↦ ?_, hr, hs⟩
      have hquiet := hc.quiet h
      simp [hr, Request.usesChannel] at hquiet
    have hend : r ≠ .error .endless := fun h ↦ by
      obtain ⟨e, he, hnone⟩ := hu.endless.mp h
      exact hreplied e (List.mem_append_right _ (List.mem_of_getLast? he)) hnone
    obtain ⟨e, he, hr⟩ := hreach hopen' hend
    exact ⟨e, List.mem_append_right _ he, hr⟩
  case endless =>
    have hr : r = .error .endless := by
      rcases hbye with ⟨hr, -⟩ | ⟨e, -, -, hresult, -⟩
      · exact hr
      · exact absurd hend hresult
    obtain ⟨e, he, hnone⟩ := hu.endless.mp hr
    refine ⟨hlimit hr, hauth.append more, e, ?_, hnone⟩
    rw [List.getLast?_append, he]
    rfl
  case farewell =>
    rcases hbye with ⟨-, rfl, -⟩ | ⟨e, rfl, he, -⟩
    · exact absurd rfl hend
    · exact ⟨e, rfl, he⟩
  case parted =>
    rcases hbye with ⟨-, -, hnil⟩ | ⟨e, -, -, hresult, -⟩
    · exact hnil
    · exact absurd (hauth.append more) (h.resolve_right hresult)

end Order

def mute : Peer where
  session := .ok ()
  answer
    | .openChannel :: _ => .never
    | _ => .now ()
  confirms := true
  reaction _ := ⟨[], .missing⟩
  pause _ := .zero

def absent : Peer where
  session := .ok ()
  answer _ := .refused "Connection refused"
  confirms := true
  reaction _ := ⟨[], .missing⟩
  pause _ := .zero

end SelfHealing.Ssh
