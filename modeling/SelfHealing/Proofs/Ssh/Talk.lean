import SelfHealing.Ssh.Transport

/-!
Talks step by step: what each part of a session gives, and what it leaves. Main statement: a request adds its exchange
to the session, and its answer decides how the talk goes on.
-/

namespace SelfHealing.Ssh

open Command Net Text Time

def Exchange.Succeeded (e : Exchange) : Prop := ∃ d, e.reply = some (d, .ok ())

def Exchange.Refused (e : Exchange) (reason : String) : Prop := ∃ d, e.reply = some (d, .error reason)

theorem Exchange.Succeeded.replied {e : Exchange} (h : e.Succeeded) : e.reply ≠ none := by
  obtain ⟨d, h⟩ := h
  simp [h]

theorem Exchange.Refused.replied {e : Exchange} {reason : String} (h : e.Refused reason) : e.reply ≠ none := by
  obtain ⟨d, h⟩ := h
  simp [h]

theorem Exchange.Refused.not_succeeded {e : Exchange} {reason : String} (h : e.Refused reason) : ¬e.Succeeded := by
  rintro ⟨_, hs⟩
  obtain ⟨_, hr⟩ := h
  simp [hs] at hr

def exchangeOf {α : Type} (r : Request) (began : Instant) (patience : Option Duration) (a : Answer α) : Exchange :=
  ⟨r, began, patience, (a.within? patience).map fun (d, result) ↦ (d, result.map fun _ ↦ ())⟩

section Answers

variable {α : Type} {r : Request} {now : Instant} {patience : Option Duration} {a : Answer α} {after : Duration}

theorem exchangeOf_reply_eq_none : (exchangeOf r now patience a).reply = none ↔ a.within? patience = none :=
  Option.map_eq_none_iff

theorem exchangeOf_succeeded {value : α} (h : a.within? patience = some (after, .ok value)) :
    (exchangeOf r now patience a).Succeeded := by
  refine ⟨after, ?_⟩
  simp only [exchangeOf, h]
  rfl

theorem exchangeOf_refused {reason : String} (h : a.within? patience = some (after, .error reason)) :
    (exchangeOf r now patience a).Refused reason := by
  refine ⟨after, ?_⟩
  simp only [exchangeOf, h]
  rfl

theorem within?_some (a : Answer α) (timeout : Duration) :
    ∃ after result, a.within? (some timeout) = some (after, result) ∧ after.nanos ≤ timeout.nanos := by
  obtain ⟨delay, result⟩ := a
  cases delay with
  | none => exact ⟨timeout, _, rfl, Nat.le_refl _⟩
  | some delay =>
    by_cases h : delay ≤ timeout
    · exact ⟨delay, result, by simp only [Answer.within?, if_pos h], h⟩
    · exact ⟨timeout, .error Answer.timedOut, by simp only [Answer.within?, if_neg h], Nat.le_refl _⟩

theorem within?_none (h : a.within? patience = none) : patience = none := by
  cases patience with
  | none => rfl
  | some timeout =>
    obtain ⟨after, result, ha, -⟩ := within?_some a timeout
    simp [ha] at h

end Answers

namespace Talk

variable {α β : Type}

/-- The result of a talk that begins in a session, and the session that it leaves. -/
def hold (x : Talk α) (s : Session) : Except Failure α × Session := x.run.run s

@[simp] theorem hold_pure (a : α) (s : Session) : hold (pure a) s = (.ok a, s) := rfl

@[simp] theorem hold_fail (e : Error) (s : Session) : hold (fail e : Talk α) s = (.error (.error e), s) := rfl

@[simp] theorem hold_throw (f : Failure) (s : Session) : hold (throw f : Talk α) s = (.error f, s) := rfl

@[simp] theorem hold_get (s : Session) : hold get s = (.ok s, s) := rfl

@[simp] theorem hold_set (s t : Session) : hold (set t) s = (.ok ⟨⟩, t) := rfl

@[simp] theorem hold_modify (f : Session → Session) (s : Session) : hold (modify f) s = (.ok ⟨⟩, f s) := rfl

@[simp] theorem hold_setTimeout (timeout : Option Duration) (s : Session) :
    hold (setTimeout timeout) s = (.ok (), { s with timeout := timeout }) := rfl

theorem hold_bind (x : Talk α) (f : α → Talk β) (s : Session) :
    hold (x >>= f) s =
      match hold x s with
      | (.ok a, t) => hold (f a) t
      | (.error e, t) => (.error e, t) := by
  have h : hold (x >>= f) s = ExceptT.bindCont f (hold x s).1 (hold x s).2 := rfl
  rw [h]
  rcases hold x s with ⟨_ | a, t⟩ <;> rfl

theorem hold_bind_ok {x : Talk α} {s t : Session} {a : α} (h : hold x s = (.ok a, t)) (f : α → Talk β) :
    hold (x >>= f) s = hold (f a) t := by
  rw [hold_bind, h]

theorem hold_bind_error {x : Talk α} {s t : Session} {e : Failure} (h : hold x s = (.error e, t)) (f : α → Talk β) :
    hold (x >>= f) s = (.error e, t) := by
  rw [hold_bind, h]

theorem hold_bind_eq_ok {x : Talk α} {f : α → Talk β} {s u : Session} {b : β} :
    hold (x >>= f) s = (.ok b, u) ↔ ∃ a t, hold x s = (.ok a, t) ∧ hold (f a) t = (.ok b, u) := by
  rw [hold_bind]
  constructor
  · intro h
    rcases hx : hold x s with ⟨e | a, t⟩
    · simp [hx] at h
    · rw [hx] at h
      exact ⟨a, t, rfl, h⟩
  · rintro ⟨a, t, hx, hf⟩
    rw [hx]
    exact hf

theorem hold_attempt (x : Talk α) (s : Session) :
    hold (attempt x) s =
      match hold x s with
      | (.ok a, t) => (.ok (.ok a), t)
      | (.error (.error e), t) => (.ok (.error e), t)
      | (.error .endless, t) => (.error .endless, t) := rfl

@[simp] theorem hold_ofExcept (r : Except Error α) (s : Session) :
    hold (ofExcept r) s = (r.mapError .error, s) := by
  cases r <;> rfl

def paused (p : Peer) (s : Session) : Session :=
  { s with now := s.now.after (p.pause s.steps), steps := s.steps + 1 }

@[simp] theorem hold_clock (p : Peer) (s : Session) : hold (clock p) s = (.ok (paused p s).now, paused p s) := rfl

@[simp] theorem paused_exchanges (p : Peer) (s : Session) : (paused p s).exchanges = s.exchanges := rfl

@[simp] theorem paused_timeout (p : Peer) (s : Session) : (paused p s).timeout = s.timeout := rfl

def noted (e : Exchange) (s : Session) : Session :=
  { s with
    exchanges := e :: s.exchanges
    now := s.now.after ((e.reply.map Prod.fst).getD .zero) }

@[simp] theorem noted_exchanges (e : Exchange) (s : Session) : (noted e s).exchanges = e :: s.exchanges := rfl

@[simp] theorem noted_timeout (e : Exchange) (s : Session) : (noted e s).timeout = s.timeout := rfl

/-- A request adds its exchange; without an answer and a timeout it has no result. -/
theorem hold_converse (p : Peer) (r : Request) (patience : Option Duration) (answer : List Request → Answer α)
    (s : Session) :
    hold (converse p r patience answer) s =
      (match (answer (r :: s.requests)).within? patience with
        | some (_, result) => .ok result
        | none => .error .endless,
      noted (exchangeOf r (paused p s).now patience (answer (r :: s.requests))) (paused p s)) := by
  simp only [converse, hold_bind, hold_clock, hold_get, hold_set]
  have hrequests : (paused p s).requests = s.requests := rfl
  rw [hrequests]
  rcases hw : (answer (r :: s.requests)).within? patience with _ | ⟨d, result⟩
  · simp only [hold_throw, noted, exchangeOf, hw, Option.map_none, Option.getD_none]
    rfl
  · simp only [hold_bind, hold_modify, hold_pure, noted, exchangeOf, hw, Option.map_some, Option.getD_some]

theorem hold_ask (p : Peer) (r : Request) (s : Session) :
    hold (ask p r) s = hold (converse p r s.timeout p.answer) s := rfl

theorem hold_take (p : Peer) (a : Answer Octets) (s : Session) :
    hold (take p a) s = hold (converse p .read s.timeout fun _ ↦ a) s := rfl

theorem ask_answered (p : Peer) (r : Request) {s : Session} {patience : Duration} (hs : s.timeout = some patience) :
    ∃ e result, e.request = r ∧ hold (ask p r) s = (.ok result, noted e (paused p s)) := by
  obtain ⟨after, result, hw, -⟩ := within?_some (p.answer (r :: s.requests)) patience
  refine ⟨exchangeOf r (paused p s).now s.timeout (p.answer (r :: s.requests)), result, rfl, ?_⟩
  rw [hold_ask, hold_converse, hs, hw]

theorem hold_demand (p : Peer) (r : Request) (explain : String → Error) (s : Session) :
    hold (demand p r explain) s =
      (match (p.answer (r :: s.requests)).within? s.timeout with
        | some (_, .ok ()) => .ok ()
        | some (_, .error reason) => .error (.error (explain reason))
        | none => .error .endless,
      noted (exchangeOf r (paused p s).now s.timeout (p.answer (r :: s.requests))) (paused p s)) := by
  rw [demand, hold_bind, hold_ask, hold_converse]
  rcases (p.answer (r :: s.requests)).within? s.timeout with _ | ⟨d, reason | ⟨⟩⟩ <;> rfl

theorem demand_cases (p : Peer) (r : Request) (explain : String → Error) (s : Session) :
    ∃ e, e.request = r ∧ e.began = (paused p s).now ∧
      (e.Succeeded ∧ hold (demand p r explain) s = (.ok (), noted e (paused p s)) ∨
        (∃ reason, e.Refused reason ∧
          hold (demand p r explain) s = (.error (.error (explain reason)), noted e (paused p s))) ∨
        s.timeout = none ∧ e.reply = none ∧ hold (demand p r explain) s = (.error .endless, noted e (paused p s))) := by
  refine ⟨exchangeOf r (paused p s).now s.timeout (p.answer (r :: s.requests)), rfl, rfl, ?_⟩
  rw [hold_demand]
  rcases hw : (p.answer (r :: s.requests)).within? s.timeout with _ | ⟨d, reason | ⟨⟩⟩
  · exact .inr (.inr ⟨within?_none hw, exchangeOf_reply_eq_none.mpr hw, rfl⟩)
  · exact .inr (.inl ⟨reason, exchangeOf_refused hw, rfl⟩)
  · exact .inl ⟨exchangeOf_succeeded hw, rfl⟩

end Talk

end SelfHealing.Ssh
