import Mathlib
import SelfHealing.Proofs.Ssh.Plan

/-!
How long a command can keep a session. A timeout is set to what is left of the limit, but several waits may follow under
one timeout. Main statement: a command ends, and not later than its limit taken as many times as waits can follow under
one timeout.
-/

namespace SelfHealing.Ssh

open Command Net Text Time

def pausedBetween (p : Peer) (first last : Nat) : Nat := ∑ n ∈ Finset.Ico first last, (p.pause n).nanos

theorem pausedBetween_succ (p : Peer) {first last : Nat} (h : first ≤ last) :
    pausedBetween p first (last + 1) = pausedBetween p first last + (p.pause last).nanos :=
  Finset.sum_Ico_succ_top h _

def readsToLine : List (Answer Octets) → Nat
  | [] => 1
  | a :: rest =>
    match a.result with
    | .ok bytes => if bytes.isEmpty ∨ newline ∈ bytes then 1 else readsToLine rest + 1
    | .error _ => 1

def mostReads : List (Answer Octets) → Nat
  | [] => 1
  | a :: rest => max (readsToLine (a :: rest)) (mostReads rest)

theorem readsToLine_le_mostReads (output : List (Answer Octets)) : readsToLine output ≤ mostReads output := by
  cases output with
  | nil => exact Nat.le_refl 1
  | cons a rest => exact Nat.le_max_left _ _

theorem one_le_mostReads (output : List (Answer Octets)) : 1 ≤ mostReads output := by
  induction output with
  | nil => exact Nat.le_refl 1
  | cons a rest ih => exact Nat.le_trans ih (Nat.le_max_right _ _)

/-- No more time has passed than a bound and the pauses of this end since a step. -/
structure InTime (p : Peer) (first bound : Nat) (s : Session) : Prop where
  begun : first ≤ s.steps
  within : s.now.nanos ≤ bound + pausedBetween p first s.steps

structure Room (p : Peer) (first bound waits : Nat) (s : Session) : Prop where
  begun : first ≤ s.steps
  within : ∃ timeout : Duration, s.timeout = some timeout ∧
    s.now.nanos + waits * timeout.nanos ≤ bound + pausedBetween p first s.steps

section Rooms

variable {p : Peer} {first bound waits : Nat} {s : Session}

theorem Room.mono {fewer : Nat} (h : Room p first bound waits s) (hle : fewer ≤ waits) :
    Room p first bound fewer s := by
  obtain ⟨timeout, hs, ht⟩ := h.within
  exact ⟨h.begun, timeout, hs, Nat.le_trans (Nat.add_le_add_left (Nat.mul_le_mul_right _ hle) _) ht⟩

theorem Room.inTime (h : Room p first bound waits s) : InTime p first bound s := by
  obtain ⟨timeout, -, ht⟩ := h.within
  exact ⟨h.begun, Nat.le_trans (Nat.le_add_right _ _) ht⟩

theorem InTime.paused (h : InTime p first bound s) : InTime p first bound (Talk.paused p s) := by
  have hs := h.within
  refine ⟨Nat.le_succ_of_le h.begun, ?_⟩
  simp only [Talk.paused, Instant.after, pausedBetween_succ p h.begun]
  omega

theorem Room.paused (h : Room p first bound waits s) : Room p first bound waits (Talk.paused p s) := by
  obtain ⟨timeout, hs, ht⟩ := h.within
  refine ⟨Nat.le_succ_of_le h.begun, timeout, hs, ?_⟩
  simp only [Talk.paused, Instant.after, pausedBetween_succ p h.begun]
  omega

theorem Room.noted {α : Type} {r : Request} {began : Instant} {a : Answer α} (h : Room p first bound (waits + 1) s) :
    Room p first bound waits (Talk.noted (exchangeOf r began s.timeout a) s) := by
  obtain ⟨timeout, hs, ht⟩ := h.within
  obtain ⟨after, result, ha, hle⟩ := within?_some a timeout
  refine ⟨h.begun, timeout, hs, ?_⟩
  simp only [Talk.noted, exchangeOf, hs, ha, Option.map_some, Option.getD_some, Instant.after]
  rw [Nat.add_mul, Nat.one_mul] at ht
  omega

end Rooms

/-- A talk ends, and takes no more than a number of waits under the timeout that is set. -/
def Spends (p : Peer) (first bound waits : Nat) {α : Type} (x : Talk α) : Prop :=
  ∀ s left, Room p first bound (left + waits) s → (x.hold s).1 ≠ .error .endless ∧ Room p first bound left (x.hold s).2

section Waits

variable {p : Peer} {first bound waits : Nat} {α β : Type}

theorem Spends.bind {x : Talk α} {f : α → Talk β} {more : Nat} (hx : Spends p first bound waits x)
    (hf : ∀ a, Spends p first bound more (f a)) : Spends p first bound (waits + more) (x >>= f) := by
  intro s left hs
  obtain ⟨hend, hroom⟩ := hx s (left + more) (by rwa [Nat.add_assoc, Nat.add_comm more waits])
  rcases hr : x.hold s with ⟨e | a, t⟩
  · rw [hr] at hend hroom
    rw [Talk.hold_bind_error hr]
    exact ⟨fun h ↦ hend (by cases h; rfl), hroom.mono (Nat.le_add_right _ _)⟩
  · rw [hr] at hroom
    rw [Talk.hold_bind_ok hr]
    exact hf a t left hroom

theorem ask_spends (r : Request) : Spends p first bound 1 (Talk.ask p r) := by
  intro s left hs
  rw [Talk.hold_ask, Talk.hold_converse]
  refine ⟨?_, hs.paused.noted⟩
  obtain ⟨timeout, ht, -⟩ := hs.within
  obtain ⟨after, result, ha, -⟩ := within?_some (p.answer (r :: s.requests)) timeout
  simp [ht, ha]

theorem demand_spends (r : Request) (explain : String → Error) : Spends p first bound 1 (Talk.demand p r explain) := by
  have hbind : Spends p first bound (1 + 0) (Talk.demand p r explain) := by
    rw [Talk.demand]
    refine (ask_spends r).bind fun result s left hs ↦ ?_
    rcases result with reason | ⟨⟩
    · exact ⟨by simp, hs⟩
    · exact ⟨by simp, hs⟩
  exact hbind

theorem receive_spends (host : Address) (a : Answer Octets) : Spends p first bound 1 (receive p host a) := by
  intro s left hs
  rw [hold_receive]
  refine ⟨?_, hs.paused.noted⟩
  obtain ⟨timeout, ht, -⟩ := hs.within
  obtain ⟨after, result, ha, -⟩ := within?_some a timeout
  rw [ht, ha]
  cases result <;> simp

theorem take_end_spends : Spends p first bound 1 (Talk.take p (.now [])) := by
  intro s left hs
  rw [take_end]
  exact ⟨by simp, hs.paused.noted⟩

theorem setVariables_spends (bs : List Binding) : Spends p first bound bs.length (setVariables p bs) := by
  induction bs with
  | nil => exact fun s left hs ↦ ⟨by simp [setVariables], hs⟩
  | cons b rest ih =>
    rw [List.length_cons, Nat.add_comm]
    exact (ask_spends _).bind fun _ ↦ ih

end Waits

section Limit

variable {p : Peer} {d : Deadline} {limit : Duration} {first bound : Nat} {host : Address}

theorem nextTimeout?_limited (hlimit : d.limit = some limit) (now : Instant) :
    d.nextTimeout? now =
      if (now.since d.started).nanos + 1000000 ≤ limit.nanos then
        some (some (.ofMillis (sessionMillis ⟨limit.nanos - (now.since d.started).nanos⟩)))
      else none := by
  simp only [Deadline.nextTimeout?, hlimit, Duration.sub?]
  by_cases hpassed : now.since d.started ≤ limit
  · simp only [if_pos hpassed, Option.bind_eq_bind, Option.bind_some]
    have hnanos : (now.since d.started).nanos ≤ limit.nanos := hpassed
    refine if_congr ?_ rfl rfl
    simp only [sessionMillis, Duration.wholeMillis]
    omega
  · have hnanos : limit.nanos < (now.since d.started).nanos := Nat.lt_of_not_le hpassed
    rw [if_neg hpassed, if_neg (by omega)]
    rfl

theorem nextTimeout?_within (hlimit : d.limit = some limit) {now : Instant} {timeout : Option Duration}
    (h : d.nextTimeout? now = some timeout) :
    ∃ left : Duration, timeout = some left ∧ left.nanos ≤ limit.nanos ∧
      now.nanos + left.nanos ≤ d.started.nanos + limit.nanos := by
  rw [nextTimeout?_limited hlimit, Option.ite_none_right_eq_some] at h
  obtain ⟨hleft, h⟩ := h
  refine ⟨_, (Option.some_inj.mp h).symm, ?_⟩
  -- Whole milliseconds are taken, so that the timeout never reaches over the limit.
  simp only [Instant.since, Duration.ofMillis, sessionMillis, Duration.wholeMillis] at hleft ⊢
  omega

def EndsInTime (p : Peer) (first bound : Nat) {α : Type} (x : Talk α) (s : Session) : Prop :=
  (x.hold s).1 ≠ .error .endless ∧ InTime p first bound (x.hold s).2

variable {α β : Type} {waits : Nat} {s : Session}

theorem endsInTime_bind {x : Talk α} {f : α → Talk β} (hx : EndsInTime p first bound x s)
    (hf : ∀ a t, x.hold s = (.ok a, t) → InTime p first bound t → EndsInTime p first bound (f a) t) :
    EndsInTime p first bound (x >>= f) s := by
  obtain ⟨hend, hlate⟩ := hx
  rcases hr : x.hold s with ⟨e | a, t⟩
  · rw [hr] at hend hlate
    rw [EndsInTime, Talk.hold_bind_error hr]
    exact ⟨fun h ↦ hend (by cases h; rfl), hlate⟩
  · rw [hr] at hlate
    have h := hf a t hr hlate
    rwa [EndsInTime, ← Talk.hold_bind_ok hr f] at h

theorem Spends.bind_endsInTime {x : Talk α} {f : α → Talk β} (hx : Spends p first bound waits x) (left : Nat)
    (hs : Room p first bound (left + waits) s)
    (hf : ∀ a t, x.hold s = (.ok a, t) → Room p first bound left t → EndsInTime p first bound (f a) t) :
    EndsInTime p first bound (x >>= f) s := by
  obtain ⟨hend, hroom⟩ := hx s left hs
  refine endsInTime_bind ⟨hend, hroom.inTime⟩ fun a t hr _ ↦ hf a t hr ?_
  rwa [hr] at hroom

/-- Setting the timeout anew gives room for as many waits as the bound has limits. -/
theorem arm_bind_endsInTime (waits : Nat) {f : Unit → Talk β} (hlimit : d.limit = some limit)
    (hbound : d.started.nanos + (waits + 1) * limit.nanos ≤ bound) (hs : InTime p first bound s)
    (hf : ∀ t, Room p first bound (waits + 1) t → EndsInTime p first bound (f ()) t) :
    EndsInTime p first bound (arm p host d >>= f) s := by
  have harm := hold_arm p host d s
  rcases hnext : d.nextTimeout? (Talk.paused p s).now with _ | timeout
  · rw [hnext] at harm
    rw [EndsInTime, Talk.hold_bind_error harm]
    exact ⟨by simp, hs.paused⟩
  · obtain ⟨left, rfl, hle, hend⟩ := nextTimeout?_within hlimit hnext
    rw [hnext] at harm
    rw [EndsInTime, Talk.hold_bind_ok harm]
    -- The first wait ends within the limit; any other can take as long as a limit, not what is left of it.
    refine hf _ ⟨hs.paused.begun, left, rfl, ?_⟩
    have hwaits : waits * left.nanos ≤ waits * limit.nanos := Nat.mul_le_mul_left _ hle
    simp only [Nat.add_mul, Nat.one_mul] at hbound ⊢
    omega

theorem pushLine_bind_endsInTime {line : Octets} {f : Unit → Talk β} (hs : InTime p first bound s)
    (hf : ∀ t, InTime p first bound t → EndsInTime p first bound (f ()) t) :
    EndsInTime p first bound (pushLine line >>= f) s :=
  hf _ ⟨hs.begun, hs.within⟩

theorem finishLines_endsInTime (hlimit : d.limit = some limit) (hbound : d.started.nanos + limit.nanos ≤ bound)
    (held : Octets) (hs : InTime p first bound s) : EndsInTime p first bound (finishLines p host d held) s := by
  by_cases hheld : held.isEmpty
  · rw [finishLines_nil hheld]
    exact ⟨by simp, hs⟩
  · rw [finishLines_cons hheld]
    refine pushLine_bind_endsInTime hs fun t ht ↦ ?_
    refine arm_bind_endsInTime 0 hlimit (by simpa using hbound) ht fun t ht ↦ ?_
    refine take_end_spends.bind_endsInTime 0 ht fun _ t _ ht ↦ ?_
    exact ⟨by simp, ht.inTime⟩

/-- Each line is read under a timeout of its own, which has room for the reads of the longest line. -/
theorem readLines_endsInTime (hlimit : d.limit = some limit) (held ready : Octets) (output : List (Answer Octets))
    (hbound : d.started.nanos + mostReads output * limit.nanos ≤ bound)
    (hs : Room p first bound (if newline ∈ ready then 0 else readsToLine output) s) :
    EndsInTime p first bound (readLines p host d held ready output) s := by
  have hfirst {more : List (Answer Octets)} (h : d.started.nanos + mostReads more * limit.nanos ≤ bound) :
      d.started.nanos + limit.nanos ≤ bound := by
    have hone := Nat.mul_le_mul_right limit.nanos (one_le_mostReads more)
    omega
  -- A read takes the room of one wait. Where a line ends the timeout is set anew, and the room is that of a line again.
  induction held, ready, output using readLines.induct generalizing s with
  | case1 held ready output h _ ih =>
    rw [readLines_line h]
    obtain ⟨waits, hwaits⟩ := Nat.exists_eq_add_of_le' (one_le_mostReads output)
    refine pushLine_bind_endsInTime hs.inTime fun t ht ↦ ?_
    refine arm_bind_endsInTime waits hlimit (hwaits ▸ hbound) ht fun t ht ↦ ?_
    refine ih hbound (ht.mono ?_)
    rw [← hwaits]
    split
    · exact Nat.zero_le _
    · exact readsToLine_le_mostReads output
  | case2 held ready h =>
    rw [readLines_nil h]
    rw [if_neg h] at hs
    refine take_end_spends.bind_endsInTime 0 hs fun _ t _ ht ↦ ?_
    exact finishLines_endsInTime hlimit (hfirst hbound) _ ht.inTime
  | case3 held ready h _ a more =>
    rename_i ih
    rw [readLines_cons h]
    rw [if_neg h] at hs
    have hmore : d.started.nanos + mostReads more * limit.nanos ≤ bound := by
      have hle := Nat.mul_le_mul_right limit.nanos (Nat.le_max_right (readsToLine (a :: more)) (mostReads more))
      exact Nat.le_trans (Nat.add_le_add_left hle _) hbound
    obtain ⟨left, hleft⟩ : ∃ left, readsToLine (a :: more) = left + 1 := by
      unfold readsToLine
      repeat' split
      all_goals exact ⟨_, rfl⟩
    rw [hleft] at hs
    refine (receive_spends host a).bind_endsInTime left hs fun bytes t hr ht ↦ ?_
    split
    · exact finishLines_endsInTime hlimit (hfirst hmore) _ ht.inTime
    · rename_i hbytes
      refine ih bytes hmore (ht.mono ?_)
      split
      · exact Nat.zero_le _
      · rename_i hline
        have hresult := receive_ok hr
        simp [readsToLine, hresult, hbytes, hline] at hleft
        omega

variable {t : Target} {command : String}

theorem collect_endsInTime (hlimit : d.limit = some limit)
    (hbound : d.started.nanos + mostReads (p.reaction command).output * limit.nanos ≤ bound)
    (hs : InTime p first bound s) : EndsInTime p first bound (collect p t command d) s := by
  obtain ⟨waits, hwaits⟩ := Nat.exists_eq_add_of_le' (one_le_mostReads (p.reaction command).output)
  rw [hwaits] at hbound
  refine arm_bind_endsInTime waits hlimit hbound hs fun u hu ↦ ?_
  refine endsInTime_bind (readLines_endsInTime hlimit [] [] _ (hwaits ▸ hbound) (hu.mono ?_)) fun _ u _ hu ↦ ?_
  · rw [← hwaits, if_neg List.not_mem_nil]
    exact readsToLine_le_mostReads _
  · refine arm_bind_endsInTime waits hlimit hbound hu fun u hu ↦ ?_
    refine (demand_spends _ _).bind_endsInTime 0 (hu.mono ?_) fun _ u _ hu ↦ ?_
    · rw [Nat.zero_add]
      exact Nat.succ_pos waits
    · exact ⟨fun h ↦ (by cases h), hu.inTime⟩

theorem execPrepared_endsInTime (hlimit : d.limit = some limit)
    (hbound : d.started.nanos + mostReads (p.reaction command).output * limit.nanos ≤ bound)
    (hs : Room p first bound 1 s) : EndsInTime p first bound (execPrepared p t command d) s :=
  (demand_spends _ _).bind_endsInTime 0 hs fun _ _ _ hu ↦ collect_endsInTime hlimit hbound hu.inTime

/-- The requests before a command is run share one timeout: the channel, the variables and the command itself. -/
theorem exec_endsInTime (t : Target) (command : String) (hlimit : d.limit = some limit)
    (hshared : d.started.nanos + (t.environment.length + 2) * limit.nanos ≤ bound)
    (hbound : d.started.nanos + mostReads (p.reaction command).output * limit.nanos ≤ bound)
    (hs : InTime p first bound s) : EndsInTime p first bound (exec p t command d) s := by
  rw [exec_eq]
  refine arm_bind_endsInTime _ hlimit hshared hs fun u hu ↦ ?_
  refine (demand_spends _ _).bind_endsInTime _ hu fun _ u _ hu ↦ ?_
  refine (setVariables_spends t.environment).bind_endsInTime 1 (hu.mono ?_) fun _ u _ hu ↦ ?_
  · omega
  · exact execPrepared_endsInTime hlimit hbound hu

theorem exec_over (hover : d.isOver (Talk.paused p s).now = true) :
    (exec p t command d).hold s =
      (.error (.error (.connection t.host "deadline exceeded")), Talk.paused p s) := by
  have harm := hold_arm p t.host d s
  rw [Option.isNone_iff_eq_none.mp hover] at harm
  rw [exec, Talk.hold_bind_error harm]

end Limit

/-- Whatever the server does, running a command under a limit ends: at once if the limit was over before, else before
the limit has passed as often as waits can follow under one timeout. Those are the requests before the command runs, or
the reads of a line. Pauses of this end come on top. -/
theorem exec_bounded (p : Peer) (t : Target) (command : String) {d : Deadline} {limit : Duration}
    (hlimit : d.limit = some limit) (s : Session) :
    ∃ result u, (exec p t command d).hold s = (result, u) ∧ result ≠ .error .endless ∧
      u.now.nanos ≤
        max s.now.nanos (d.started.nanos +
          max (t.environment.length + 2) (mostReads (p.reaction command).output) * limit.nanos) +
            pausedBetween p s.steps u.steps ∧
      (d.isOver (Talk.paused p s).now = true →
        result = .error (.error (.connection t.host "deadline exceeded")) ∧ u = Talk.paused p s) := by
  set most := max (t.environment.length + 2) (mostReads (p.reaction command).output) with hmost
  have hwaits {n : Nat} (h : n ≤ most) : d.started.nanos + n * limit.nanos ≤
      max s.now.nanos (d.started.nanos + most * limit.nanos) :=
    Nat.le_trans (Nat.add_le_add_left (Nat.mul_le_mul_right _ h) _) (Nat.le_max_right _ _)
  have hs : InTime p s.steps (max s.now.nanos (d.started.nanos + most * limit.nanos)) s :=
    ⟨Nat.le_refl _, Nat.le_trans (Nat.le_max_left _ _) (Nat.le_add_right _ _)⟩
  obtain ⟨hend, hlate⟩ := exec_endsInTime t command hlimit (hwaits (Nat.le_max_left _ _))
    (hwaits (Nat.le_max_right _ _)) hs
  refine ⟨((exec p t command d).hold s).1, ((exec p t command d).hold s).2, rfl, hend, hlate.within, fun hover ↦ ?_⟩
  rw [exec_over hover]
  exact ⟨rfl, rfl⟩

def gapped (gap : Duration) : Peer where
  session := .ok ()
  answer _ := .now ()
  confirms := true
  reaction _ := ⟨[⟨some gap, .ok (encode "a")⟩, ⟨some gap, .ok (encode "b\n")⟩], .status 0⟩
  pause _ := .zero

def passwordTarget : Target :=
  ⟨.v4 ⟨127, 0, 0, 1⟩, { Credential.empty with user := "root", password := "x", port := "22" }, []⟩

theorem exec_bounded_gapped :
    (⟨some (.ofSeconds 1), ⟨0⟩⟩ : Deadline).limit = some (.ofSeconds 1) ∧
      ∃ result u, (exec (gapped (.ofMillis 700)) passwordTarget "slow" ⟨some (.ofSeconds 1), ⟨0⟩⟩).hold .start =
          (result, u) ∧ result ≠ .error .endless ∧
        u.now.nanos ≤ 2000000000 + pausedBetween (gapped (.ofMillis 700)) 0 u.steps := by
  obtain ⟨result, u, hu, hend, hbound, -⟩ :=
    exec_bounded (gapped (.ofMillis 700)) passwordTarget "slow" (d := ⟨some (.ofSeconds 1), ⟨0⟩⟩) rfl .start
  exact ⟨rfl, result, u, hu, hend, hbound⟩

/-- Two pieces of one line, each of them in time, hold a connected session longer than the limit. -/
theorem exec_outlasts_limit :
    ¬∀ (p : Peer) (connectTimeout limit : Duration) (t : Target) (command : String) (s : Session),
      (∀ n, p.pause n = .zero) → (connect p connectTimeout t).hold .start = (.ok (), s) →
        ((exec p t command ⟨some limit, Session.start.now⟩).hold s).2.now.nanos ≤
          max s.now.nanos (Session.start.now.nanos + limit.nanos) := by
  intro h
  -- The gaps are 700 ms each, under a limit of one second.
  have hconnect : ((connect (gapped (.ofMillis 700)) (.ofSeconds 10) passwordTarget).hold .start).1 = .ok () := by
    cbv
  have hend := h (gapped (.ofMillis 700)) (.ofSeconds 10) (.ofSeconds 1) passwordTarget "slow"
    ((connect (gapped (.ofMillis 700)) (.ofSeconds 10) passwordTarget).hold .start).2 (fun _ ↦ rfl)
    (Prod.ext hconnect rfl)
  have hbegun : ((connect (gapped (.ofMillis 700)) (.ofSeconds 10) passwordTarget).hold .start).2.now.nanos = 0 := by
    cbv
  have hnow : ((exec (gapped (.ofMillis 700)) passwordTarget "slow" ⟨some (.ofSeconds 1), Session.start.now⟩).hold
      ((connect (gapped (.ofMillis 700)) (.ofSeconds 10) passwordTarget).hold .start).2).2.now.nanos = 1400000000 := by
    cbv
  rw [hbegun, hnow] at hend
  exact absurd hend (by decide)

end SelfHealing.Ssh
