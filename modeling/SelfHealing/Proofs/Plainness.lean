import SelfHealing.Command.Child
import SelfHealing.Kubernetes.Client
import SelfHealing.Proofs.Cause
import SelfHealing.Proofs.Ssh.Status
import SelfHealing.Proofs.Watch.Opening

/-!
Who reports errors that wrap no other. Main statements: the client of a cluster does, the watch that it opens, the shell
of this machine, and sessions with other hosts.
-/

namespace SelfHealing

open Command Net Ssh Text Time

/-- A result that is no failure or fails with an error that wraps no other. -/
def IsPlainly {α : Type} (r : Except Error α) : Prop := ∀ e, r = .error e → e.IsPlain

theorem isPlainly_ok {α : Type} (a : α) : IsPlainly (.ok a : Except Error α) := by
  intro e h
  cases h

theorem isPlainly_error {α : Type} {e : Error} (h : e.IsPlain) : IsPlainly (.error e : Except Error α) := by
  intro e' he
  cases he
  exact h

def Yields {W α : Type} (x : OptionT (StateM W) α) (P : α → Prop) : Prop :=
  ∀ w a v, x.run.run w = (some a, v) → P a

namespace Yields

variable {W α β : Type} {x : OptionT (StateM W) α} {f : α → OptionT (StateM W) β} {P : α → Prop} {Q : β → Prop}

theorem pure {a : α} (h : P a) : Yields (Pure.pure a : OptionT (StateM W) α) P := by
  intro w b v hb
  cases hb
  exact h

theorem bind (hx : Yields x P) (hf : ∀ a, P a → Yields (f a) Q) : Yields (x >>= f) Q := by
  intro w b u hb
  rcases hr : x.run.run w with ⟨_ | a, v⟩
  · have hnone : (x >>= f).run.run w = (none, v) := by
      simp only [OptionT.run_bind, Option.elimM, StateT.run_bind, hr]
      rfl
    rw [hnone] at hb
    cases hb
  · rw [run_bind_some hr] at hb
    exact hf a (hx w a v hr) v b u hb

theorem after (hf : ∀ a, Yields (f a) Q) : Yields (x >>= f) Q :=
  bind (P := fun _ ↦ True) (fun _ _ _ _ ↦ trivial) fun a _ ↦ hf a

end Yields

namespace Kubernetes.Client

variable {W : Type} (c : Client (OptionT (StateM W))) {α : Type}

theorem isPlainly_fails (operation reason : String) : IsPlainly (fails operation reason : Except Error α) :=
  isPlainly_error rfl

theorem ask_plainly (operation : String) (r : Request) (read : Response → Except String α) :
    Yields (c.ask operation r read) IsPlainly := by
  unfold ask
  split
  · exact .pure (isPlainly_fails operation _)
  · refine .after fun answer ↦ ?_
    rcases answer with reason | response
    · exact .pure (isPlainly_fails operation reason)
    · simp only
      cases read response with
      | ok a => exact .pure (isPlainly_ok a)
      | error reason => exact .pure (isPlainly_fails operation reason)

theorem askFor_plainly (operation name : String) (r : Request) (read : Response → Except String α) :
    Yields (c.askFor operation name r read) IsPlainly := by
  unfold askFor
  split
  · exact .pure (isPlainly_fails operation _)
  · exact c.ask_plainly operation r read

theorem listPods_plainly (space : String) : Yields (c.listPods space) IsPlainly :=
  c.ask_plainly "list pods" _ _

theorem getPod_plainly (space name : String) : Yields (c.getPod space name) IsPlainly :=
  c.askFor_plainly "get pod" name _ _

theorem replacePod_plainly (space name : String) (pod : Pod) : Yields (c.replacePod space name pod) IsPlainly :=
  c.askFor_plainly "update pod" name _ _

theorem deletePod_plainly (space name : String) : Yields (c.deletePod space name) IsPlainly :=
  c.askFor_plainly "delete pod" name _ _

end Kubernetes.Client

namespace Kubernetes.Watcher

theorem told_plainly (raw : RawItem) : IsPlainly (told raw) := by
  cases raw with
  | ok event => exact isPlainly_ok event
  | error reason => exact isPlainly_error rfl

theorem course_plainly (s : Scope) (answers : List Answer) : ∀ t ∈ (course s answers).script.items, IsPlainly t.item := by
  intro t h
  obtain ⟨raw, hraw⟩ := course_told s answers t h
  rw [← hraw]
  exact told_plainly raw

end Kubernetes.Watcher

namespace Watch

theorem openFrom?_plainly {elapsed : Duration} {read : List PodItem} {ending : Ending} {items : List (Timed WatcherItem)}
    {opening : Opening} (hitems : ∀ t ∈ items, IsPlainly t.item)
    (h : openFrom? elapsed read ending items = some opening) : IsPlainly opening.result := by
  induction items generalizing elapsed read with
  | nil =>
    cases ending with
    | closed =>
      cases h
      exact isPlainly_ok _
    | silent => cases h
  | cons t rest ih =>
    obtain ⟨hfirst, hrest⟩ := List.forall_mem_cons.mp hitems
    obtain ⟨d, e | event⟩ := t
    · cases h
      exact isPlainly_error (hfirst e rfl)
    · simp only [openFrom?] at h
      split at h
      · cases h
        exact isPlainly_ok _
      · exact ih hrest h

end Watch

section Local

variable {W : Type}

theorem localRunner_plainly (launch : Launch) (t : Target) (command : String) (limit : Option Duration)
    (sink : Option (Sink (OptionT (StateM W)))) :
    Yields (localRunner launch t command limit sink) IsPlainly := by
  unfold localRunner
  cases startFailure? command t.environment with
  | some reason => exact .pure (isPlainly_error rfl)
  | none =>
    refine .after fun _ ↦ ?_
    rcases (Child.start.collect limit .zero (launch command t.environment)).1 with output | _ | _
    · exact .pure (isPlainly_ok output)
    · exact .pure (isPlainly_error rfl)
    · intro w a v h
      cases h

end Local

namespace Ssh

/-- From any session on, what a talk gives has a property, and a failure of the talk is plain. -/
def Tells {α : Type} (x : Talk α) (P : α → Prop) : Prop :=
  ∀ s, (∀ a t, x.hold s = (.ok a, t) → P a) ∧ ∀ e t, x.hold s = (.error (.error e), t) → e.IsPlain

namespace Tells

variable {α β : Type} {x : Talk α} {f : α → Talk β} {P : α → Prop} {Q : β → Prop}

theorem pure {a : α} (h : P a) : Tells (Pure.pure a : Talk α) P := by
  intro s
  constructor
  · intro b t hb
    cases hb
    exact h
  · intro e t he
    cases he

theorem fail {e : Error} (h : e.IsPlain) : Tells (Talk.fail e : Talk α) P := by
  intro s
  constructor
  · intro a t ha
    cases ha
  · intro e' t he
    cases he
    exact h

theorem bind (hx : Tells x P) (hf : ∀ a, P a → Tells (f a) Q) : Tells (x >>= f) Q := by
  intro s
  obtain ⟨hok, hfailed⟩ := hx s
  rcases hr : x.hold s with ⟨failure | a, t⟩
  · rw [Talk.hold_bind_error hr]
    constructor
    · intro b u hb
      cases hb
    · intro e u he
      cases he
      exact hfailed e t hr
  · rw [Talk.hold_bind_ok hr]
    exact hf a (hok a t hr) t

theorem mono {R : α → Prop} (hx : Tells x P) (h : ∀ a, P a → R a) : Tells x R := by
  intro s
  obtain ⟨hok, hfailed⟩ := hx s
  exact ⟨fun a t ha ↦ h a (hok a t ha), hfailed⟩

theorem of_ok (h : ∀ s, ∃ r t, x.hold s = (r, t) ∧ ∀ e, r ≠ .error (.error e)) : Tells x fun _ ↦ True := by
  intro s
  obtain ⟨r, t, hr, hne⟩ := h s
  refine ⟨fun _ _ _ ↦ trivial, ?_⟩
  intro e u he
  rw [hr] at he
  cases he
  exact absurd rfl (hne e)

theorem attempt (hx : Tells x P) : Tells (Talk.attempt x) IsPlainly := by
  intro s
  obtain ⟨-, hfailed⟩ := hx s
  rw [Talk.hold_attempt]
  rcases hr : x.hold s with ⟨(e | _) | a, t⟩
  · constructor
    · intro r u h
      cases h
      exact isPlainly_error (hfailed e t hr)
    · intro e' u h
      cases h
  · constructor
    · intro r u h
      cases h
    · intro e' u h
      cases h
  · constructor
    · intro r u h
      cases h
      exact isPlainly_ok a
    · intro e' u h
      cases h

theorem ofExcept {r : Except Error α} (h : IsPlainly r) : Tells (Talk.ofExcept r) fun _ ↦ True := by
  cases r with
  | ok a => exact pure trivial
  | error e => exact fail (h e rfl)

end Tells

section Parts

variable {p : Peer} {t : Target} {host : Address} {d : Deadline}

theorem converse_tells {α : Type} (r : Request) (patience : Option Duration) (answer : List Request → Answer α) :
    Tells (Talk.converse p r patience answer) fun _ ↦ True := by
  apply Tells.of_ok
  intro s
  rw [Talk.hold_converse]
  refine ⟨_, _, rfl, ?_⟩
  intro e
  split <;> simp

theorem clock_tells : Tells (Talk.clock p) fun _ ↦ True := .of_ok fun _ ↦ ⟨_, _, rfl, by simp⟩

theorem setTimeout_tells (timeout : Option Duration) : Tells (Talk.setTimeout timeout) fun _ ↦ True :=
  .of_ok fun _ ↦ ⟨_, _, rfl, by simp⟩

theorem ask_tells (r : Request) : Tells (Talk.ask p r) fun _ ↦ True := by
  intro s
  rw [Talk.hold_ask]
  exact converse_tells r s.timeout p.answer s

theorem demand_tells (r : Request) {explain : String → Error} (h : ∀ reason, (explain reason).IsPlain) :
    Tells (Talk.demand p r explain) fun _ ↦ True := by
  unfold Talk.demand
  apply (ask_tells r).bind
  intro result _
  rcases result with reason | ⟨⟩
  · exact .fail (h reason)
  · exact .pure trivial

theorem arm_tells : Tells (arm p host d) fun _ ↦ True := by
  unfold arm
  apply clock_tells.bind
  intro now _
  cases d.nextTimeout? now with
  | none => exact .fail rfl
  | some timeout => exact setTimeout_tells timeout

theorem take_tells (a : Answer Octets) : Tells (Talk.take p a) fun _ ↦ True := by
  intro s
  rw [Talk.hold_take]
  exact converse_tells .read s.timeout (fun _ ↦ a) s

theorem pushLine_tells (line : Octets) : Tells (pushLine line) fun _ ↦ True := .of_ok fun _ ↦ ⟨_, _, rfl, by simp⟩

theorem setVariables_tells (bs : List Binding) : Tells (setVariables p bs) fun _ ↦ True := by
  induction bs with
  | nil => exact .pure trivial
  | cons b rest ih =>
    apply (ask_tells _).bind
    intro _ _
    exact ih

theorem finishLines_tells (held : Octets) : Tells (finishLines p host d held) fun _ ↦ True := by
  by_cases h : held.isEmpty
  · rw [finishLines_nil h]
    exact .pure trivial
  · rw [finishLines_cons h]
    refine (pushLine_tells held).bind fun _ _ ↦ arm_tells.bind fun _ _ ↦ ?_
    exact (take_tells _).bind fun _ _ ↦ .pure trivial

theorem receive_tells (a : Answer Octets) : Tells (receive p host a) fun _ ↦ True := by
  unfold receive
  apply (take_tells a).bind
  intro result _
  cases result with
  | error reason => exact .fail rfl
  | ok bytes => exact .pure trivial

theorem readLines_tells (p : Peer) (host : Address) (d : Deadline) (held ready : Octets)
    (output : List (Answer Octets)) : Tells (readLines p host d held ready output) fun _ ↦ True := by
  induction held, ready, output using readLines.induct with
  | case1 held ready output h _ ih =>
    rw [readLines_line h]
    exact (pushLine_tells _).bind fun _ _ ↦ arm_tells.bind fun _ _ ↦ ih
  | case2 held ready h =>
    rw [readLines_nil h]
    exact (take_tells _).bind fun _ _ ↦ finishLines_tells _
  | case3 held ready h _ a more ih =>
    rw [readLines_cons h]
    apply (receive_tells a).bind
    intro bytes _
    split
    · exact finishLines_tells _
    · exact ih bytes

theorem exec_tells (p : Peer) (t : Target) (command : String) (d : Deadline) :
    Tells (exec p t command d) fun _ ↦ True := by
  have hfailed : ∀ reason, (channelFailed t.host reason).IsPlain := fun _ ↦ rfl
  have hget : Tells (get : Talk Session) fun _ ↦ True := .of_ok fun _ ↦ ⟨_, _, rfl, by simp⟩
  rw [exec_eq]
  refine arm_tells.bind fun _ _ ↦ (demand_tells _ hfailed).bind fun _ _ ↦ (setVariables_tells _).bind fun _ _ ↦ ?_
  refine (demand_tells _ hfailed).bind fun _ _ ↦ arm_tells.bind fun _ _ ↦ ?_
  refine (readLines_tells p t.host d [] [] _).bind fun _ _ ↦ arm_tells.bind fun _ _ ↦ ?_
  exact (demand_tells _ hfailed).bind fun _ _ ↦ hget.bind fun _ _ ↦ .pure trivial

theorem connect_tells (p : Peer) (connectTimeout : Duration) (t : Target) :
    Tells (connect p connectTimeout t) fun _ ↦ True := by
  unfold connect
  rcases hport : t.credential.portFor t.host with e | port
  · unfold Credential.portFor at hport
    split at hport <;> cases hport
    exact .fail rfl
  · refine Tells.bind (P := fun _ ↦ True) ?_ fun _ _ ↦ Tells.bind (P := fun _ ↦ True) ?_ fun _ _ ↦
      (setTimeout_tells _).bind fun _ _ ↦ (demand_tells _ ?_).bind fun _ _ ↦ ?_
    · unfold dial
      apply (converse_tells _ _ _).bind
      intro result _
      rcases result with reason | ⟨⟩
      · exact .fail rfl
      · simp only
        split
        · exact .fail rfl
        · exact .pure trivial
    · cases p.session with
      | ok => exact .pure trivial
      | error reason => exact .ofExcept (isPlainly_error rfl)
    · intro reason
      rfl
    · cases login? t.credential with
      | none => exact .fail rfl
      | some login =>
        refine (demand_tells _ ?_).bind fun _ _ ↦ ?_
        · intro reason
          rfl
        · cases p.confirms with
          | true => exact .pure trivial
          | false => exact .fail rfl

end Parts

section Session

variable (p : Peer) (connectTimeout : Duration) (t : Target)

theorem judge_tells {d : Deadline} {late : Error} (hlate : late.IsPlain) {r : Except Error Output}
    (hr : IsPlainly r) : Tells (judge p d late r) IsPlainly := by
  cases r with
  | ok output => exact .pure (isPlainly_ok output)
  | error e =>
    apply clock_tells.bind
    intro now _
    apply Tells.pure
    apply isPlainly_error
    split
    · exact hlate
    · exact hr e rfl

theorem run_tells (command : String) (limit : Option Duration) :
    Tells (run p connectTimeout t command limit) fun _ ↦ True := by
  have hlate : (Error.commandTimeout t.host command (limit.getD .zero)).IsPlain := rfl
  rw [run_eq]
  refine clock_tells.bind fun now _ ↦ (connect_tells p connectTimeout t).bind fun _ _ ↦ ?_
  refine (exec_tells p t command ⟨limit, now⟩).attempt.bind fun result hresult ↦ ?_
  refine (judge_tells p hlate hresult).bind fun judged hjudged ↦ ?_
  refine Tells.bind (P := fun _ ↦ True) ?_ fun _ _ ↦ .ofExcept hjudged
  exact (setTimeout_tells _).bind fun _ _ ↦ ask_tells _

theorem ping_tells : Tells (ping p connectTimeout t) fun _ ↦ True := by
  refine (connect_tells p connectTimeout t).bind fun _ _ ↦ (ask_tells _).bind fun result _ ↦ ?_
  rcases result with reason | ⟨⟩
  · exact .fail rfl
  · exact .pure trivial

end Session

namespace Network

variable {W : Type} (n : Network (StateM W)) (connectTimeout : Duration) (t : Target)

theorem carry_plainly {α : Type} {talk : Peer → Talk α} (h : ∀ p, Tells (talk p) fun _ ↦ True) :
    Yields (n.carry t talk) fun outcome ↦ IsPlainly outcome.1 := by
  unfold carry
  refine .after fun p ↦ ?_
  rcases hr : (talk p).run.run Session.start with ⟨(e | _) | a, s⟩
  · exact .after fun _ ↦ .pure (isPlainly_error ((h p .start).2 e s hr))
  · refine .after fun _ ↦ ?_
    intro w a v hnone
    cases hnone
  · exact .after fun _ ↦ .pure (isPlainly_ok a)

theorem runner_plainly (command : String) (limit : Option Duration) (sink : Option (Sink (OptionT (StateM W)))) :
    Yields (n.runner connectTimeout t command limit sink) IsPlainly := by
  refine Yields.bind (n.carry_plainly t fun p ↦ run_tells p connectTimeout t command limit) ?_
  intro outcome houtcome
  exact .after fun _ ↦ .pure houtcome

theorem pinger_plainly : Yields (n.pinger connectTimeout t) IsPlainly := by
  refine Yields.bind (n.carry_plainly t fun p ↦ ping_tells p connectTimeout t) ?_
  intro outcome houtcome
  exact .pure houtcome

end Network

end Ssh

end SelfHealing
