import SelfHealing.Proofs.Command.Transcript
import SelfHealing.Proofs.Ssh.Protocol

/-!
What a session shows. Main statements: a session that comes to the close of its channel gives an output, and this is what
the server has sent, line by line, with the status that it has reported.
-/

namespace SelfHealing.Ssh

open Command Net Text Time

def received : List (Answer Octets) → Octets
  | [] => []
  | a :: rest =>
    match a.result with
    | .ok bytes => if bytes = [] then [] else bytes ++ received rest
    | .error _ => []

section Shown

variable {α β : Type}

def Silent (x : Talk α) : Prop := ∀ s, (x.hold s).2.transcript = s.transcript

theorem Silent.pure (a : α) : Silent (Pure.pure a : Talk α) := fun _ ↦ rfl

theorem Silent.fail (e : Error) : Silent (Talk.fail e : Talk α) := fun _ ↦ rfl

theorem Silent.ofExcept (r : Except Error α) : Silent (Talk.ofExcept r) := by
  cases r with
  | ok a => exact .pure a
  | error e => exact .fail e

theorem Silent.bind {x : Talk α} {f : α → Talk β} (hx : Silent x) (hf : ∀ a, Silent (f a)) : Silent (x >>= f) := by
  intro s
  have hshown := hx s
  rw [Talk.hold_bind]
  rcases hr : x.hold s with ⟨e | a, t⟩
  · rw [hr] at hshown
    exact hshown
  · rw [hr] at hshown
    exact (hf a t).trans hshown

theorem Silent.of_ok {x : Talk α} (hx : Silent x) {s t : Session} {a : α} (h : x.hold s = (.ok a, t)) :
    t.transcript = s.transcript := by
  have hshown := hx s
  rwa [h] at hshown

variable {p : Peer} {t : Target} {host : Address} {d : Deadline}

theorem converse_silent (r : Request) (patience : Option Duration) (answer : List Request → Answer α) :
    Silent (Talk.converse p r patience answer) := by
  intro s
  rw [Talk.hold_converse]
  rfl

theorem ask_silent (r : Request) : Silent (Talk.ask p r) := by
  intro s
  rw [Talk.hold_ask]
  exact converse_silent r s.timeout p.answer s

theorem take_silent (a : Answer Octets) : Silent (Talk.take p a) := by
  intro s
  rw [Talk.hold_take]
  exact converse_silent .read s.timeout (fun _ ↦ a) s

theorem demand_silent (r : Request) (explain : String → Error) : Silent (Talk.demand p r explain) := by
  refine (ask_silent r).bind fun result ↦ ?_
  cases result with
  | ok _ => exact .pure ()
  | error reason => exact .fail (explain reason)

theorem clock_silent : Silent (Talk.clock p) := fun _ ↦ rfl

theorem arm_silent : Silent (arm p host d) := by
  refine clock_silent.bind fun now ↦ ?_
  cases d.nextTimeout? now with
  | some timeout => exact fun _ ↦ rfl
  | none => exact .fail _

theorem setVariables_silent (bs : List Binding) : Silent (setVariables p bs) := by
  induction bs with
  | nil => exact .pure ()
  | cons b rest ih => exact (ask_silent _).bind fun _ ↦ ih

theorem receive_silent (a : Answer Octets) : Silent (receive p host a) := by
  refine (take_silent a).bind fun result ↦ ?_
  cases result with
  | ok bytes => exact .pure bytes
  | error reason => exact .fail _

theorem finishLines_shown {held : Octets} {s u : Session} (h : (finishLines p host d held).hold s = (.ok (), u)) :
    u.transcript = s.transcript.push held := by
  by_cases hheld : held.isEmpty
  · rw [finishLines_nil hheld] at h
    cases h
    rw [List.isEmpty_iff.mp hheld, Transcript.push_nil]
  · rw [finishLines_cons hheld] at h
    simp only [Talk.hold_bind_eq_ok] at h
    obtain ⟨_, v, hpush, _, w, harm, _, x, htake, hlast⟩ := h
    cases hpush
    cases hlast
    rw [(take_silent _).of_ok htake, arm_silent.of_ok harm]

theorem finishLines_tail {held ready : Octets} {s u : Session} (hheld : newline ∉ held) (hready : newline ∉ ready)
    (h : (finishLines p host d (held ++ ready)).hold s = (.ok (), u)) :
    u.transcript = s.transcript.pushAll (splitLines (held ++ (ready ++ []))) := by
  have htail : newline ∉ held ++ (ready ++ []) := by simp [hheld, hready]
  rw [finishLines_shown h, Transcript.pushAll_tail htail, List.append_nil]

/-- The lines shown are those of all that is received. -/
theorem readLines_shown (held ready : Octets) (output : List (Answer Octets)) (hheld : newline ∉ held) :
    ∀ s u, (readLines p host d held ready output).hold s = (.ok (), u) →
      u.transcript = s.transcript.pushAll (splitLines (held ++ (ready ++ received output))) := by
  revert hheld
  induction held, ready, output using readLines.induct with
  | case1 held ready output hline _ ih =>
    intro hheld s u h
    rw [readLines_line hline] at h
    simp only [Talk.hold_bind_eq_ok] at h
    obtain ⟨_, v, hpush, _, w, harm, hrest⟩ := h
    cases hpush
    rw [ih List.not_mem_nil w u hrest, arm_silent.of_ok harm, Transcript.pushAll_line hheld hline]
    rfl
  | case2 held ready hline =>
    intro hheld s u h
    rw [readLines_nil hline] at h
    simp only [Talk.hold_bind_eq_ok] at h
    obtain ⟨_, v, htake, hfinish⟩ := h
    rw [finishLines_tail hheld hline hfinish, (take_silent _).of_ok htake]
    rfl
  | case3 held ready hline _ answer more ih =>
    intro hheld s u h
    rw [readLines_cons hline] at h
    simp only [Talk.hold_bind_eq_ok] at h
    obtain ⟨bytes, v, hreceive, hrest⟩ := h
    have hnext : newline ∉ held ++ ready := by simp [hheld, hline]
    simp only [received, receive_ok hreceive]
    rw [← (receive_silent answer).of_ok hreceive]
    by_cases hempty : bytes = []
    · rw [if_pos (List.isEmpty_iff.mpr hempty)] at hrest
      rw [if_pos hempty]
      exact finishLines_tail hheld hline hrest
    · rw [if_neg (mt List.isEmpty_iff.mp hempty)] at hrest
      rw [if_neg hempty, ih bytes hnext v u hrest, List.append_assoc]

variable {command : String} {connectTimeout : Duration} {limit : Option Duration} {output : Output} {s u : Session}

theorem collect_shown (h : (collect p t command d).hold s = (.ok output, u)) :
    output = ⟨(p.reaction command).exit.code, u.transcript.text⟩ ∧
      u.transcript = s.transcript.pushAll (splitLines (received (p.reaction command).output)) := by
  simp only [collect, Talk.hold_bind_eq_ok] at h
  obtain ⟨_, a, harm, _, b, hread, _, c, harm', _, e, hclose, _, f, hget, hpure⟩ := h
  cases hget
  cases hpure
  refine ⟨rfl, ?_⟩
  rw [(demand_silent _ _).of_ok hclose, arm_silent.of_ok harm', readLines_shown _ _ _ List.not_mem_nil _ _ hread,
    arm_silent.of_ok harm]
  rfl

theorem exec_shown (h : (exec p t command d).hold s = (.ok output, u)) :
    output = ⟨(p.reaction command).exit.code, u.transcript.text⟩ ∧
      u.transcript = s.transcript.pushAll (splitLines (received (p.reaction command).output)) := by
  rw [exec_eq] at h
  simp only [Talk.hold_bind_eq_ok] at h
  obtain ⟨_, a, harm, _, b, hopen, _, c, hset, hprepared⟩ := h
  obtain ⟨_, e, hexec, hcollect⟩ := Talk.hold_bind_eq_ok.mp hprepared
  rw [← arm_silent.of_ok harm, ← (demand_silent _ _).of_ok hopen, ← (setVariables_silent _).of_ok hset,
    ← (demand_silent _ _).of_ok hexec]
  exact collect_shown hcollect

theorem dial_silent (port : Nat) : Silent (dial p connectTimeout host port) := by
  refine (converse_silent _ _ _).bind fun result ↦ ?_
  cases result with
  | ok _ =>
    by_cases hzero : connectTimeout.nanos = 0
    · simp only [hzero, if_true]
      exact .fail _
    · simp only [hzero, if_false]
      exact .pure ()
  | error reason => exact .fail _

theorem connect_silent : Silent (connect p connectTimeout t) := by
  unfold connect
  cases t.credential.portFor t.host with
  | error e => exact .fail e
  | ok port =>
    refine (dial_silent port).bind fun _ ↦ (Silent.ofExcept _).bind fun _ ↦ ?_
    have htimeout : Silent (Talk.setTimeout (some (connectPatience connectTimeout))) := fun _ ↦ rfl
    refine htimeout.bind fun _ ↦ (demand_silent _ _).bind fun _ ↦ ?_
    cases login? t.credential with
    | none => exact .fail _
    | some login =>
      refine (demand_silent _ _).bind fun _ ↦ ?_
      cases p.confirms with
      | true => exact .pure ()
      | false => exact .fail _

theorem goodbye_silent : Silent (sayGoodbye p connectTimeout) := by
  have htimeout : Silent (Talk.setTimeout (some (connectPatience connectTimeout))) := fun _ ↦ rfl
  exact htimeout.bind fun _ ↦ ask_silent _

/-- A session that gives an output gives what it has received, and the status that was reported. -/
theorem run_shown (h : (run p connectTimeout t command limit).hold .start = (.ok output, u)) :
    output = ⟨(p.reaction command).exit.code, (Transcript.ofOctets (received (p.reaction command).output)).text⟩ ∧
      u.transcript = .ofOctets (received (p.reaction command).output) := by
  rw [run_eq] at h
  simp only [serve, Talk.hold_bind_eq_ok] at h
  obtain ⟨now, a, hclock, _, b, hconnect, result, c, hattempt, judged, e, hjudge, _, f, hbye, hlast⟩ := h
  have hbegin : b.transcript = .empty := by
    rw [connect_silent.of_ok hconnect, clock_silent.of_ok hclock]
    rfl
  -- Only an output that the command has given is left at the end.
  rw [Talk.hold_ofExcept] at hlast
  rcases result with reason | given
  · cases hjudge
    cases hlast
  · cases hjudge
    cases hlast
    have hexec : (exec p t command ⟨limit, now⟩).hold b = (.ok output, c) := by
      rw [Talk.hold_attempt] at hattempt
      rcases he : (exec p t command ⟨limit, now⟩).hold b with ⟨(reason | _) | given, v⟩
      · rw [he] at hattempt
        cases hattempt
      · rw [he] at hattempt
        cases hattempt
      · rw [he] at hattempt
        cases hattempt
        rfl
    obtain ⟨houtput, hshown⟩ := exec_shown hexec
    rw [hbegin] at hshown
    rw [goodbye_silent.of_ok hbye, houtput, hshown]
    exact ⟨rfl, rfl⟩

end Shown

def Exchange.Closes (e : Exchange) : Prop := e.request = .awaitClose ∧ e.Succeeded

section Closing

variable {α β : Type} {plan : Language Request}

/-- A talk that comes to a value once the channel is closed. -/
def Settles (x : Talk α) : Prop :=
  ∀ s, ∃ steps, (x.hold s).2.exchanges = steps ++ s.exchanges ∧ ((∃ e ∈ steps, e.Closes) → ∃ a, (x.hold s).1 = .ok a)

theorem Settles.after {x : Talk α} {f : α → Talk β} (hx : Keeps plan x) (hplan : ∀ word ∈ plan, .awaitClose ∉ word)
    (hf : ∀ a, Settles (f a)) : Settles (x >>= f) := by
  intro s
  obtain ⟨front, hfront, hu⟩ := hx s
  have hopen : ¬∃ e ∈ front.reverse, e.Closes := by
    rintro ⟨e, he, hr, -⟩
    obtain ⟨word, hword, hprefix⟩ := hu.asked
    apply hplan word hword
    rw [← hr]
    exact hprefix.subset (List.mem_map_of_mem (List.mem_reverse.mp he))
  rcases hr : x.hold s with ⟨e | a, t⟩
  · rw [hr] at hfront
    rw [Talk.hold_bind_error hr]
    exact ⟨front.reverse, hfront, fun h ↦ absurd h hopen⟩
  · rw [hr] at hfront
    have hnoted : t.exchanges = front.reverse ++ s.exchanges := hfront
    obtain ⟨back, hback, hclosed⟩ := hf a t
    rw [Talk.hold_bind_ok hr]
    refine ⟨back ++ front.reverse, by rw [hback, hnoted, List.append_assoc], ?_⟩
    rintro ⟨e, he, hcloses⟩
    rcases List.mem_append.mp he with h | h
    · exact hclosed ⟨e, h, hcloses⟩
    · exact absurd ⟨e, h, hcloses⟩ hopen

variable {p : Peer} {t : Target} {host : Address} {d : Deadline} {command : String}

theorem awaitClose_settles (explain : String → Error) (f : Session → Output) :
    Settles (do Talk.demand p .awaitClose explain; return f (← get)) := by
  intro s
  obtain ⟨e, -, -, ⟨-, h⟩ | ⟨reason, hrefused, h⟩ | ⟨-, hnone, h⟩⟩ := Talk.demand_cases p .awaitClose explain s
  · rw [Talk.hold_bind_ok h]
    exact ⟨[e], rfl, fun _ ↦ ⟨_, rfl⟩⟩
  · rw [Talk.hold_bind_error h]
    refine ⟨[e], rfl, ?_⟩
    rintro ⟨a, ha, -, hs⟩
    obtain rfl := List.mem_singleton.mp ha
    exact absurd hs hrefused.not_succeeded
  · rw [Talk.hold_bind_error h]
    refine ⟨[e], rfl, ?_⟩
    rintro ⟨a, ha, -, hs⟩
    obtain rfl := List.mem_singleton.mp ha
    exact absurd hnone hs.replied

theorem exec_settles (p : Peer) (t : Target) (command : String) (d : Deadline) : Settles (exec p t command d) := by
  have hquiet : ∀ word ∈ (1 : Language Request), .awaitClose ∉ word := by
    rintro _ rfl
    exact List.not_mem_nil
  have hone {r : Request} (hr : r ≠ .awaitClose) : ∀ word ∈ ({[r]} : Language Request), .awaitClose ∉ word := by
    rintro _ rfl hmem
    exact hr (List.mem_singleton.mp hmem).symm
  have hreads : ∀ word ∈ readings, .awaitClose ∉ word := by
    intro word hword hmem
    cases hword _ hmem
  have hcollect : Settles (collect p t command d) :=
    .after (arm_keeps p t.host d) hquiet fun _ ↦ .after (readLines_keeps p t.host d [] [] _) hreads fun _ ↦
      .after (arm_keeps p t.host d) hquiet fun _ ↦ awaitClose_settles _ _
  rw [exec_eq]
  refine .after (arm_keeps p t.host d) hquiet fun _ ↦ .after (demand_keeps _ _) (hone (by simp)) fun _ ↦
    .after (setVariables_keeps t.environment) ?_ fun _ ↦ ?_
  · rintro _ rfl hmem
    simp [variableRequest] at hmem
  · exact .after (demand_keeps _ _) (hone (by simp)) fun _ ↦ hcollect

variable {connectTimeout : Duration} {limit : Option Duration}

/-- A session that comes to the close of its channel gives an output. -/
theorem run_closed (h : ∃ e ∈ ((run p connectTimeout t command limit).hold .start).2.exchanges, e.Closes) :
    ∃ output s, (run p connectTimeout t command limit).hold .start = (.ok output, s) := by
  obtain ⟨e, he, hcloses⟩ := h
  rw [run_eq, Talk.hold_bind_ok (Talk.hold_clock p .start)] at he ⊢
  rcases hport : t.credential.portFor t.host with reason | port
  · have hconnect : (connect p connectTimeout t).hold (Talk.paused p .start) =
        (.error (.error reason), Talk.paused p .start) := by
      simp only [connect, hport, Talk.hold_fail]
    rw [Talk.hold_bind_error hconnect] at he
    cases he
  · obtain ⟨steps, r, u, hconnect, hu, hc⟩ := connect_cases p connectTimeout hport (Talk.paused p .start)
    have hopen : e ∉ u.exchanges := by
      intro hmem
      have hsteps : e ∈ steps := by simpa [hu, Session.start] using hmem
      have hquiet := hc.quiet hsteps
      rw [hcloses.1] at hquiet
      cases hquiet
    rcases r with f | ⟨⟩
    · rw [Talk.hold_bind_error hconnect] at he
      exact absurd he hopen
    · rw [Talk.hold_bind_ok hconnect] at he ⊢
      obtain ⟨back, hback, hclosed⟩ := exec_settles p t command ⟨limit, (Talk.paused p .start).now⟩ u
      rcases hexec : (exec p t command ⟨limit, (Talk.paused p .start).now⟩).hold u with ⟨r, v⟩
      rw [hexec] at hback hclosed
      have hgiven (hv : e ∈ v.exchanges) : ∃ output, r = .ok output := by
        rw [show v.exchanges = back ++ u.exchanges from hback] at hv
        exact hclosed ⟨e, (List.mem_append.mp hv).resolve_right hopen, hcloses⟩
      rcases serve_cases connectTimeout limit hexec with ⟨hr, hserve⟩ | ⟨bye, result, w, hserve, hw, hbye, -, hok⟩
      · rw [hserve] at he
        obtain ⟨output, houtput⟩ := hgiven he
        cases hr.symm.trans houtput
      · rw [hserve] at he ⊢
        rw [hw] at he
        rcases List.mem_cons.mp he with rfl | hv
        · cases hbye.symm.trans hcloses.1
        · obtain ⟨output, houtput⟩ := hgiven hv
          exact ⟨output, w, by rw [(hok output).mpr houtput]⟩

end Closing

end SelfHealing.Ssh
