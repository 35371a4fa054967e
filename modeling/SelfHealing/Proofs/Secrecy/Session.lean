import SelfHealing.Proofs.Secrecy.Registry
import SelfHealing.Proofs.Ssh.Protocol

/-!
Sessions that resemble each other. Two servers resemble each other that answer the same to requests which differ in no
more than a secret that logs in. Main statement: a command is run, and a host is tried, with such requests in the same
order and with the same result.
-/

namespace SelfHealing.Ssh

open Command Net Text Time

inductive Login.Resembles : Login → Login → Prop
  | password {text text' : String} (h : Veiled text text') : Resembles (.password text) (.password text')
  | keyFile (path : String) {passphrase passphrase' : String} (h : Veiled passphrase passphrase') :
      Resembles (.keyFile path passphrase) (.keyFile path passphrase')

inductive Request.Resembles : Request → Request → Prop
  | same (r : Request) : Resembles r r
  | authenticate (user : String) {login login' : Login} (h : login.Resembles login') :
      Resembles (.authenticate user login) (.authenticate user login')

structure Exchange.Resembles (e e' : Exchange) : Prop where
  request : e.request.Resembles e'.request
  began : e.began = e'.began
  patience : e.patience = e'.patience
  reply : e.reply = e'.reply

structure Peer.Resembles (p p' : Peer) : Prop where
  session : p.session = p'.session
  answer : ∀ requests requests', List.Forall₂ Request.Resembles requests requests' →
    p.answer requests = p'.answer requests'
  confirms : p.confirms = p'.confirms
  reaction : p.reaction = p'.reaction
  pause : p.pause = p'.pause

structure Session.Resembles (s s' : Session) : Prop where
  now : s.now = s'.now
  steps : s.steps = s'.steps
  timeout : s.timeout = s'.timeout
  exchanges : List.Forall₂ Exchange.Resembles s.exchanges s'.exchanges
  transcript : s.transcript = s'.transcript

theorem Session.Resembles.requests {s s' : Session} (h : s.Resembles s') :
    List.Forall₂ Request.Resembles s.requests s'.requests := by
  rw [Session.requests, Session.requests, List.forall₂_map_left_iff, List.forall₂_map_right_iff]
  exact h.exchanges.imp fun _ _ he ↦ he.request

def Tallies {α : Type} (x x' : Talk α) : Prop :=
  ∀ s s', s.Resembles s' → ∃ r t t', x.hold s = (r, t) ∧ x'.hold s' = (r, t') ∧ t.Resembles t'

section Talks

variable {α β : Type} {x x' : Talk α}

theorem Tallies.bind {f f' : α → Talk β} (hx : Tallies x x') (hf : ∀ a, Tallies (f a) (f' a)) :
    Tallies (x >>= f) (x' >>= f') := by
  intro s s' hs
  obtain ⟨e | a, t, t', hr, hr', ht⟩ := hx s s' hs
  · exact ⟨.error e, t, t', Talk.hold_bind_error hr _, Talk.hold_bind_error hr' _, ht⟩
  · rw [Talk.hold_bind_ok hr, Talk.hold_bind_ok hr']
    exact hf a t t' ht

theorem Tallies.quiet {r : Session → Except Failure α} {note : Session → Session}
    (hx : ∀ s, x.hold s = (r s, note s)) (hx' : ∀ s, x'.hold s = (r s, note s))
    (hr : ∀ s s', s.Resembles s' → r s = r s')
    (hnote : ∀ s s', s.Resembles s' → (note s).Resembles (note s')) : Tallies x x' := by
  intro s s' hs
  refine ⟨r s, note s, note s', hx s, ?_, hnote s s' hs⟩
  rw [hx', hr s s' hs]

theorem tallies_pure (a : α) : Tallies (pure a) (pure a) :=
  .quiet (fun _ ↦ rfl) (fun _ ↦ rfl) (fun _ _ _ ↦ rfl) (fun _ _ hs ↦ hs)

theorem tallies_fail (e : Error) : Tallies (Talk.fail e : Talk α) (Talk.fail e) :=
  .quiet (fun _ ↦ rfl) (fun _ ↦ rfl) (fun _ _ _ ↦ rfl) (fun _ _ hs ↦ hs)

theorem tallies_ofExcept (r : Except Error α) : Tallies (Talk.ofExcept r) (Talk.ofExcept r) :=
  .quiet (Talk.hold_ofExcept r) (Talk.hold_ofExcept r) (fun _ _ _ ↦ rfl) (fun _ _ hs ↦ hs)

theorem tallies_setTimeout (timeout : Option Duration) : Tallies (Talk.setTimeout timeout) (Talk.setTimeout timeout) :=
  .quiet (fun _ ↦ rfl) (fun _ ↦ rfl) (fun _ _ _ ↦ rfl) (fun _ _ hs ↦ { hs with timeout := rfl })

theorem tallies_pushLine (line : Octets) : Tallies (pushLine line) (pushLine line) :=
  .quiet (fun _ ↦ rfl) (fun _ ↦ rfl) (fun _ _ _ ↦ rfl)
    (fun _ _ hs ↦ { hs with transcript := congrArg (·.push line) hs.transcript })

theorem Tallies.attempt (hx : Tallies x x') : Tallies (Talk.attempt x) (Talk.attempt x') := by
  intro s s' hs
  obtain ⟨r, t, t', hr, hr', ht⟩ := hx s s' hs
  rw [Talk.hold_attempt, Talk.hold_attempt, hr, hr']
  rcases r with (e | ⟨⟩) | a
  · exact ⟨_, t, t', rfl, rfl, ht⟩
  · exact ⟨_, t, t', rfl, rfl, ht⟩
  · exact ⟨_, t, t', rfl, rfl, ht⟩

end Talks

section Requests

variable {p p' : Peer} {α : Type}

theorem Peer.Resembles.paused (hp : p.Resembles p') {s s' : Session} (hs : s.Resembles s') :
    (Talk.paused p s).Resembles (Talk.paused p' s') where
  now := by simp only [Talk.paused, hp.pause, hs.now, hs.steps]
  steps := congrArg (· + 1) hs.steps
  timeout := hs.timeout
  exchanges := hs.exchanges
  transcript := hs.transcript

theorem Peer.Resembles.clock (hp : p.Resembles p') : Tallies (Talk.clock p) (Talk.clock p') := by
  intro s s' hs
  refine ⟨_, _, _, Talk.hold_clock p s, ?_, hp.paused hs⟩
  rw [Talk.hold_clock, (hp.paused hs).now]

theorem Session.Resembles.noted {s s' : Session} (hs : s.Resembles s') {e e' : Exchange} (he : e.Resembles e') :
    (Talk.noted e s).Resembles (Talk.noted e' s') where
  now := by simp only [Talk.noted, hs.now, he.reply]
  steps := hs.steps
  timeout := hs.timeout
  exchanges := .cons he hs.exchanges
  transcript := hs.transcript

theorem Peer.Resembles.converse (hp : p.Resembles p') {r r' : Request} (hr : r.Resembles r')
    (patience : Option Duration) {answer answer' : List Request → Answer α}
    (ha : ∀ requests requests', List.Forall₂ Request.Resembles requests requests' →
      answer requests = answer' requests') :
    Tallies (Talk.converse p r patience answer) (Talk.converse p' r' patience answer') := by
  intro s s' hs
  rw [Talk.hold_converse, Talk.hold_converse, ha _ _ (.cons hr hs.requests)]
  exact ⟨_, _, _, rfl, rfl, (hp.paused hs).noted ⟨hr, (hp.paused hs).now, rfl, rfl⟩⟩

theorem Peer.Resembles.ask (hp : p.Resembles p') {r r' : Request} (hr : r.Resembles r') :
    Tallies (Talk.ask p r) (Talk.ask p' r') := by
  intro s s' hs
  rw [Talk.hold_ask, Talk.hold_ask, hs.timeout]
  exact hp.converse hr _ hp.answer s s' hs

theorem Peer.Resembles.take (hp : p.Resembles p') (a : Answer Octets) : Tallies (Talk.take p a) (Talk.take p' a) := by
  intro s s' hs
  rw [Talk.hold_take, Talk.hold_take, hs.timeout]
  exact hp.converse (.same _) _ (fun _ _ _ ↦ rfl) s s' hs

theorem Peer.Resembles.demand (hp : p.Resembles p') {r r' : Request} (hr : r.Resembles r') (explain : String → Error) :
    Tallies (Talk.demand p r explain) (Talk.demand p' r' explain) := by
  refine (hp.ask hr).bind fun result ↦ ?_
  cases result with
  | ok => exact tallies_pure _
  | error reason => exact tallies_fail _

end Requests

theorem login?_resembles {c c' : Credential} (h : c.Resembles c') :
    Option.Rel Login.Resembles (login? c) (login? c') := by
  have hpassword := veiled_iff.mp h.password
  rcases hlogin : login? c with _ | login
  · obtain ⟨hkey, hunset⟩ := login?_eq_none.mp hlogin
    rw [login?_eq_none.mpr ⟨h.keyPath ▸ hkey, hpassword.mp hunset⟩]
    exact .none
  · rcases login?_eq_some.mp hlogin with ⟨hkey, rfl⟩ | ⟨hkey, hset, rfl⟩
    · rw [login?_eq_some.mpr (.inl ⟨h.keyPath ▸ hkey, rfl⟩), h.keyPath]
      exact .some (.keyFile _ h.keyPassphrase)
    · rw [login?_eq_some.mpr (.inr ⟨h.keyPath ▸ hkey, mt hpassword.mpr hset, rfl⟩)]
      exact .some (.password h.password)

theorem Login.Resembles.failed {login login' : Login} (h : login.Resembles login') : login.failed = login'.failed := by
  cases h <;> rfl

section Parts

variable {p p' : Peer} {t t' : Target}

theorem dial_tallies (hp : p.Resembles p') (connectTimeout : Duration) (host : Address) (port : Nat) :
    Tallies (dial p connectTimeout host port) (dial p' connectTimeout host port) := by
  refine (hp.converse (.same _) _ hp.answer).bind fun result ↦ ?_
  cases result with
  | error reason => exact tallies_fail _
  | ok =>
    by_cases hzero : connectTimeout.nanos = 0
    · simp only [hzero, if_true]
      exact tallies_fail _
    · simp only [hzero, if_false]
      exact tallies_pure _

/-- The way to log in is the same one, whatever the secrets are. -/
theorem connect_tallies (hp : p.Resembles p') (connectTimeout : Duration) (ht : t.Resembles t') :
    Tallies (connect p connectTimeout t) (connect p' connectTimeout t') := by
  rw [connect, connect, ← ht.host, ← ht.credential.portFor, ← ht.credential.effectiveUser, ← hp.session, ← hp.confirms]
  cases t.credential.portFor t.host with
  | error e => exact tallies_fail e
  | ok port =>
    refine (dial_tallies hp connectTimeout t.host port).bind fun _ ↦ (tallies_ofExcept _).bind fun _ ↦ ?_
    refine (tallies_setTimeout _).bind fun _ ↦ (hp.demand (.same _) _).bind fun _ ↦ ?_
    have hlogin := login?_resembles ht.credential
    generalize login? t.credential = login, login? t'.credential = login' at hlogin
    cases hlogin with
    | none => exact tallies_fail _
    | some h =>
      simp only [h.failed]
      refine (hp.demand (.authenticate _ h) _).bind fun _ ↦ ?_
      cases p.confirms with
      | true => exact tallies_pure _
      | false => exact tallies_fail _

theorem arm_tallies (hp : p.Resembles p') (host : Address) (d : Deadline) : Tallies (arm p host d) (arm p' host d) := by
  refine hp.clock.bind fun now ↦ ?_
  cases d.nextTimeout? now with
  | none => exact tallies_fail _
  | some timeout => exact tallies_setTimeout _

theorem setVariables_tallies (hp : p.Resembles p') (bs : List Binding) :
    Tallies (setVariables p bs) (setVariables p' bs) := by
  induction bs with
  | nil => exact tallies_pure _
  | cons b rest ih => exact (hp.ask (.same _)).bind fun _ ↦ ih

theorem receive_tallies (hp : p.Resembles p') (host : Address) (a : Answer Octets) :
    Tallies (receive p host a) (receive p' host a) := by
  refine (hp.take a).bind fun result ↦ ?_
  cases result with
  | error reason => exact tallies_fail _
  | ok bytes => exact tallies_pure _

theorem finishLines_tallies (hp : p.Resembles p') (host : Address) (d : Deadline) (held : Octets) :
    Tallies (finishLines p host d held) (finishLines p' host d held) := by
  by_cases h : held.isEmpty
  · rw [finishLines_nil h, finishLines_nil h]
    exact tallies_pure _
  · rw [finishLines_cons h, finishLines_cons h]
    exact (tallies_pushLine held).bind fun _ ↦ (arm_tallies hp host d).bind fun _ ↦
      (hp.take _).bind fun _ ↦ tallies_pure _

theorem readLines_tallies (hp : p.Resembles p') (host : Address) (d : Deadline) (held ready : Octets)
    (output : List (Answer Octets)) :
    Tallies (readLines p host d held ready output) (readLines p' host d held ready output) := by
  induction held, ready, output using readLines.induct with
  | case1 held ready output h _ ih =>
    rw [readLines_line h, readLines_line h]
    exact (tallies_pushLine _).bind fun _ ↦ (arm_tallies hp host d).bind fun _ ↦ ih
  | case2 held ready h =>
    rw [readLines_nil h, readLines_nil h]
    exact (hp.take _).bind fun _ ↦ finishLines_tallies hp host d _
  | case3 held ready h _ a more ih =>
    rw [readLines_cons h, readLines_cons h]
    refine (receive_tallies hp host a).bind fun bytes ↦ ?_
    split
    · exact finishLines_tallies hp host d _
    · exact ih bytes

end Parts

section Run

variable {p p' : Peer} {t t' : Target}

theorem collect_tallies (hp : p.Resembles p') (ht : t.Resembles t') (command : String) (d : Deadline) :
    Tallies (collect p t command d) (collect p' t' command d) := by
  rw [collect, collect, ← ht.host, ← hp.reaction]
  refine (arm_tallies hp t.host d).bind fun _ ↦ (readLines_tallies hp t.host d _ _ _).bind fun _ ↦ ?_
  refine (arm_tallies hp t.host d).bind fun _ ↦ (hp.demand (.same _) _).bind fun _ ↦ ?_
  refine .quiet (fun _ ↦ rfl) (fun _ ↦ rfl) (fun s s' hs ↦ ?_) (fun _ _ hs ↦ hs)
  rw [hs.transcript]

theorem exec_tallies (hp : p.Resembles p') (ht : t.Resembles t') (command : String) (d : Deadline) :
    Tallies (exec p t command d) (exec p' t' command d) := by
  rw [exec_eq, exec_eq, ← ht.host, ← ht.environment]
  refine (arm_tallies hp t.host d).bind fun _ ↦ (hp.demand (.same _) _).bind fun _ ↦ ?_
  refine (setVariables_tallies hp t.environment).bind fun _ ↦ ?_
  rw [execPrepared, execPrepared, ← ht.host]
  exact (hp.demand (.same _) _).bind fun _ ↦ collect_tallies hp ht command d

theorem judge_tallies (hp : p.Resembles p') (d : Deadline) (late : Error) (r : Except Error Output) :
    Tallies (judge p d late r) (judge p' d late r) := by
  cases r with
  | ok output => exact tallies_pure _
  | error e => exact hp.clock.bind fun now ↦ tallies_pure _

theorem sayGoodbye_tallies (hp : p.Resembles p') (connectTimeout : Duration) :
    Tallies (sayGoodbye p connectTimeout) (sayGoodbye p' connectTimeout) :=
  (tallies_setTimeout _).bind fun _ ↦ hp.ask (.same _)

theorem run_tallies (hp : p.Resembles p') (connectTimeout : Duration) (ht : t.Resembles t') (command : String)
    (limit : Option Duration) :
    Tallies (run p connectTimeout t command limit) (run p' connectTimeout t' command limit) := by
  refine hp.clock.bind fun now ↦ (connect_tallies hp connectTimeout ht).bind fun _ ↦ ?_
  refine (exec_tallies hp ht command ⟨limit, now⟩).attempt.bind fun outcome ↦ ?_
  rw [← ht.host]
  refine (judge_tallies hp _ _ outcome).bind fun judged ↦ ?_
  exact (sayGoodbye_tallies hp connectTimeout).bind fun _ ↦ tallies_ofExcept judged

theorem ping_tallies (hp : p.Resembles p') (connectTimeout : Duration) (ht : t.Resembles t') :
    Tallies (ping p connectTimeout t) (ping p' connectTimeout t') := by
  refine (connect_tallies hp connectTimeout ht).bind fun _ ↦ (hp.ask (.same _)).bind fun result ↦ ?_
  rw [← ht.host]
  cases result with
  | ok => exact tallies_pure _
  | error reason => exact tallies_fail _

end Run

end SelfHealing.Ssh
