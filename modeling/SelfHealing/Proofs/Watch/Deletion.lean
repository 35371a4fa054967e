import SelfHealing.Proofs.Recovery.Abort

/-!
How the wait for a deletion ends, and when. Main statement: the first item that shows the pod gone confirms the
deletion if it comes in time. Without such an item the wait ends when the stream closes, and at its limit otherwise. A
limit that the clock cannot reach aborts the wait before it begins.
-/

namespace SelfHealing.Watch

open Observation Recovery Time

def eventAt (items : List (Timed PodItem)) (i : Nat) : Option PodEvent :=
  items[i]?.bind fun t ↦ t.item.toOption

def span : List (Timed PodItem) → Duration
  | [] => .zero
  | t :: rest => t.delay + span rest

def arrival (items : List (Timed PodItem)) (i : Nat) : Duration := span (items.take (i + 1))

/-- The last listing that began before an item has neither ended nor shown the pod until then. -/
def Unshown (items : List (Timed PodItem)) (i : Nat) : Prop :=
  ∃ j < i, eventAt items j = some .listStarted ∧ ∀ k, j < k → k < i →
    eventAt items k ≠ some .listStarted ∧ eventAt items k ≠ some .listDone ∧ eventAt items k ≠ some .applied

def Decisive (items : List (Timed PodItem)) (i : Nat) : Prop :=
  eventAt items i = some .deleted ∨ eventAt items i = some .listDone ∧ Unshown items i

def FirstDecisive (items : List (Timed PodItem)) (i : Nat) : Prop :=
  Decisive items i ∧ ∀ j < i, ¬Decisive items j

/-- All the ways in which a wait can end. -/
inductive Ends (limit : Duration) (items : List (Timed PodItem)) (ending : Ending) : Waited → Prop
  | confirmed (i : Nat) (h : FirstDecisive items i) (ht : arrival items i ≤ limit) :
      Ends limit items ending ⟨.confirmed, arrival items i, i + 1⟩
  | closed (he : ending = .closed) (h : ∀ i, ¬Decisive items i) (ht : span items ≤ limit) :
      Ends limit items ending ⟨.closed, span items, items.length⟩
  | timedOut (taken : Nat) (h : ∀ i, Decisive items i → limit < arrival items i)
      (he : ending = .silent ∨ limit < span items) : Ends limit items ending ⟨.timedOut, limit, taken⟩

section Events

variable {items : List (Timed PodItem)} {i : Nat}

theorem eventAt_of_getElem? {t : Timed PodItem} (h : items[i]? = some t) : eventAt items i = t.item.toOption := by
  simp only [eventAt, h, Option.bind_some]

theorem eventAt_of_length_le (h : items.length ≤ i) : eventAt items i = none := by
  simp only [eventAt, List.getElem?_eq_none h, Option.bind_none]

theorem not_decisive_of_length_le (h : items.length ≤ i) : ¬Decisive items i := by
  simp [Decisive, eventAt_of_length_le h]

theorem unshown_succ_of_started (h : eventAt items i = some .listStarted) : Unshown items (i + 1) :=
  ⟨i, Nat.lt_succ_self i, h, fun k hk hki ↦ by omega⟩

theorem not_unshown_succ (h : eventAt items i = some .listDone ∨ eventAt items i = some .applied) :
    ¬Unshown items (i + 1) := by
  rintro ⟨j, hj, hstart, hbetween⟩
  rcases Nat.lt_succ_iff_lt_or_eq.mp hj with hlt | rfl
  · obtain ⟨-, hdone, happlied⟩ := hbetween i hlt (Nat.lt_succ_self i)
    exact h.elim hdone happlied
  · simp [hstart] at h

theorem unshown_succ_iff (hs : eventAt items i ≠ some .listStarted) (hd : eventAt items i ≠ some .listDone)
    (ha : eventAt items i ≠ some .applied) : Unshown items (i + 1) ↔ Unshown items i := by
  refine ⟨?_, ?_⟩
  · rintro ⟨j, hj, hstart, hbetween⟩
    rcases Nat.lt_succ_iff_lt_or_eq.mp hj with hlt | rfl
    · exact ⟨j, hlt, hstart, fun k hjk hki ↦ hbetween k hjk (by omega)⟩
    · exact absurd hstart hs
  · rintro ⟨j, hj, hstart, hbetween⟩
    refine ⟨j, by omega, hstart, fun k hjk hki ↦ ?_⟩
    rcases Nat.lt_succ_iff_lt_or_eq.mp hki with hlt | rfl
    · exact hbetween k hjk hlt
    · exact ⟨hs, hd, ha⟩

end Events

def Listing.Tells (l : Listing) (items : List (Timed PodItem)) (i : Nat) : Prop :=
  (l.active = true ∧ l.seen = false) ↔ Unshown items i

theorem none_tells (items : List (Timed PodItem)) : Listing.none.Tells items 0 := by
  simp [Listing.Tells, Listing.none, Unshown]

/-- One item: the state is given up at a decisive item, and tells the history after any other. -/
theorem tells_step {items : List (Timed PodItem)} {i : Nat} {t : Timed PodItem} {l : Listing}
    (ht : items[i]? = some t) (hl : l.Tells items i) :
    (l.step? t.item = none ∧ Decisive items i) ∨
      ∃ next, l.step? t.item = some next ∧ ¬Decisive items i ∧ next.Tells items (i + 1) := by
  have he := eventAt_of_getElem? ht
  obtain ⟨d, item⟩ := t
  cases item with
  | error e =>
    have he : eventAt items i = none := he
    refine .inr ⟨l, rfl, by simp [Decisive, he], ?_⟩
    exact hl.trans (unshown_succ_iff (by simp [he]) (by simp [he]) (by simp [he])).symm
  | ok event =>
    have he : eventAt items i = some event := he
    cases event with
    | deleted => exact .inl ⟨rfl, .inl he⟩
    | listStarted =>
      refine .inr ⟨⟨true, false⟩, rfl, by simp [Decisive, he], ?_⟩
      exact iff_of_true ⟨rfl, rfl⟩ (unshown_succ_of_started he)
    | applied =>
      refine .inr ⟨⟨l.active, l.seen || l.active⟩, rfl, by simp [Decisive, he], ?_⟩
      exact iff_of_false (by rintro ⟨ha, hs⟩; simp_all) (not_unshown_succ (.inr he))
    | listDone =>
      by_cases hopen : l.active = true ∧ l.seen = false
      · refine .inl ⟨?_, .inr ⟨he, hl.mp hopen⟩⟩
        simp [Listing.step?, Listing.next?, hopen]
      · refine .inr ⟨⟨false, l.seen⟩, ?_, ?_, iff_of_false (by simp) (not_unshown_succ (.inl he))⟩
        · simp only [Listing.step?, Listing.next?]
          rw [if_neg (by simpa using hopen)]
        · rintro (hd | ⟨-, hu⟩)
          · simp [he] at hd
          · exact hopen (hl.mpr hu)

section Spans

variable {items : List (Timed PodItem)}

theorem span_append (front back : List (Timed PodItem)) : span (front ++ back) = span front + span back := by
  induction front with
  | nil => exact congrArg Duration.mk (Nat.zero_add _).symm
  | cons t rest ih =>
    rw [List.cons_append, span, span, ih]
    exact congrArg Duration.mk (Nat.add_assoc _ _ _).symm

theorem arrival_eq {i : Nat} {t : Timed PodItem} (h : items[i]? = some t) :
    arrival items i = span (items.take i) + t.delay := by
  have htake : items.take (i + 1) = items.take i ++ [t] := by
    rw [List.take_add_one, h]
    rfl
  rw [arrival, htake, span_append]
  rfl

theorem span_take_mono {i j : Nat} (h : i ≤ j) : span (items.take i) ≤ span (items.take j) := by
  obtain ⟨n, rfl⟩ := Nat.exists_eq_add_of_le h
  rw [List.take_add, span_append]
  exact Nat.le_add_right _ _

theorem arrival_mono {i j : Nat} (h : i ≤ j) : arrival items i ≤ arrival items j :=
  span_take_mono (Nat.succ_le_succ h)

theorem arrival_le_span (items : List (Timed PodItem)) (i : Nat) : arrival items i ≤ span items := by
  have h := span_append (items.take (i + 1)) (items.drop (i + 1))
  rw [List.take_append_drop] at h
  rw [h]
  exact Nat.le_add_right _ _

end Spans

/-- From a state that tells the history, while no decisive item came and the limit is not past, the wait goes on to
one of its ends. -/
theorem waitFrom_ends (limit : Duration) (items : List (Timed PodItem)) (ending : Ending) {l : Listing} {i : Nat}
    (hi : i ≤ items.length) (hl : l.Tells items i) (hno : ∀ j < i, ¬Decisive items j)
    (htime : span (items.take i) ≤ limit) :
    Ends limit items ending (waitFrom limit (span (items.take i)) l i ending (items.drop i)) := by
  -- Every step moves one item from the rest to the history that the state tells.
  induction hrest : items.drop i generalizing i l with
  | nil =>
    have hlength : i = items.length := Nat.le_antisymm hi (List.drop_eq_nil_iff.mp hrest)
    have hnever : ∀ j, ¬Decisive items j := fun j ↦
      (Nat.lt_or_ge j i).elim (hno j) fun hj ↦ not_decisive_of_length_le (hlength ▸ hj)
    rw [hlength, List.take_length] at htime ⊢
    cases ending with
    | closed => exact .closed rfl hnever htime
    | silent => exact .timedOut _ (fun j hj ↦ absurd hj (hnever j)) (.inl rfl)
  | cons t rest ih =>
    have ht : items[i]? = some t := by rw [← List.head?_drop, hrest, List.head?_cons]
    have hlt : i < items.length := (List.getElem?_eq_some_iff.mp ht).1
    have hnow := arrival_eq ht
    simp only [waitFrom, ← hnow]
    by_cases hlate : limit < arrival items i
    · rw [if_pos hlate]
      refine .timedOut _ (fun j hj ↦ ?_) (.inr (Nat.lt_of_lt_of_le hlate (arrival_le_span items i)))
      have hij : i ≤ j := Nat.le_of_not_lt fun h ↦ hno j h hj
      exact Nat.lt_of_lt_of_le hlate (arrival_mono hij)
    · have hin : arrival items i ≤ limit := Nat.le_of_not_lt hlate
      rw [if_neg hlate]
      rcases tells_step ht hl with ⟨hnone, hd⟩ | ⟨next, hsome, hd, hnext⟩
      · rw [hnone]
        exact .confirmed i ⟨hd, hno⟩ hin
      · rw [hsome]
        refine ih hlt hnext (fun j hj ↦ ?_) hin ?_
        · exact (Nat.lt_succ_iff_lt_or_eq.mp hj).elim (hno j) fun h ↦ h ▸ hd
        · rw [← List.tail_drop, hrest, List.tail_cons]

theorem wait_ends (limit : Duration) (script : Script PodItem) :
    Ends limit script.items script.ending (wait limit script) :=
  waitFrom_ends limit script.items script.ending (Nat.zero_le _) (none_tells script.items)
    (fun j hj ↦ absurd hj (Nat.not_lt_zero j)) (Nat.zero_le limit.nanos)

theorem FirstDecisive.unique {items : List (Timed PodItem)} {i j : Nat} (hi : FirstDecisive items i)
    (hj : FirstDecisive items j) : i = j := by
  rcases Nat.lt_trichotomy i j with h | h | h
  · exact absurd hi.1 (hj.2 i h)
  · exact h
  · exact absurd hj.1 (hi.2 j h)

section Prefix

variable {items other : List (Timed PodItem)} {n i : Nat}

theorem eventAt_congr (h : other.take n = items.take n) (hi : i < n) : eventAt other i = eventAt items i := by
  unfold eventAt
  rw [← List.getElem?_take_of_lt hi, h, List.getElem?_take_of_lt hi]

theorem unshown_congr (h : other.take n = items.take n) (hi : i < n) : Unshown other i ↔ Unshown items i := by
  refine exists_congr fun j ↦ and_congr_right fun hj ↦ ?_
  rw [eventAt_congr h (Nat.lt_trans hj hi)]
  refine and_congr_right fun _ ↦ forall_congr' fun k ↦ forall_congr' fun _ ↦ forall_congr' fun hk ↦ ?_
  rw [eventAt_congr h (Nat.lt_trans hk hi)]

theorem decisive_congr (h : other.take n = items.take n) (hi : i < n) : Decisive other i ↔ Decisive items i := by
  unfold Decisive
  rw [eventAt_congr h hi, unshown_congr h hi]

theorem FirstDecisive.congr (hfirst : FirstDecisive items i) (h : other.take (i + 1) = items.take (i + 1)) :
    FirstDecisive other i :=
  ⟨(decisive_congr h (Nat.lt_succ_self i)).mpr hfirst.1, fun j hj hd ↦
    hfirst.2 j hj ((decisive_congr h (Nat.lt_succ_of_lt hj)).mp hd)⟩

end Prefix

/-- Two waits that end alike and at the same time, however many items they saw. -/
def SameEnd (a b : Waited) : Prop := a.outcome = b.outcome ∧ a.elapsed = b.elapsed

section Errors

variable {limit : Duration} {ending : Ending}

theorem waitFrom_append_sameEnd {back other : List (Timed PodItem)}
    (h : ∀ elapsed l n m,
      SameEnd (waitFrom limit elapsed l n ending back) (waitFrom limit elapsed l m ending other))
    (front : List (Timed PodItem)) (elapsed : Duration) (l : Listing) (n m : Nat) :
    SameEnd (waitFrom limit elapsed l n ending (front ++ back))
      (waitFrom limit elapsed l m ending (front ++ other)) := by
  induction front generalizing elapsed l n m with
  | nil => exact h elapsed l n m
  | cons t rest ih =>
    simp only [List.cons_append, waitFrom]
    by_cases hlate : limit < elapsed + t.delay
    · simp only [if_pos hlate]
      exact ⟨rfl, rfl⟩
    · simp only [if_neg hlate]
      cases l.step? t.item with
      | none => exact ⟨rfl, rfl⟩
      | some next => exact ih (elapsed + t.delay) next (n + 1) (m + 1)

theorem waitFrom_sameEnd (items : List (Timed PodItem)) (elapsed : Duration) (l : Listing) (n m : Nat) :
    SameEnd (waitFrom limit elapsed l n ending items) (waitFrom limit elapsed l m ending items) := by
  have hend (elapsed : Duration) (l : Listing) (n m : Nat) :
      SameEnd (waitFrom limit elapsed l n ending []) (waitFrom limit elapsed l m ending []) := by
    cases ending <;> exact ⟨rfl, rfl⟩
  simpa only [List.append_nil] using waitFrom_append_sameEnd hend items elapsed l n m

/-- An error only delays the item after it. -/
theorem waitFrom_error (d : Duration) (e : Error) (t : Timed PodItem) (rest : List (Timed PodItem))
    (elapsed : Duration) (l : Listing) (n m : Nat) :
    SameEnd (waitFrom limit elapsed l n ending (⟨d, .error e⟩ :: t :: rest))
      (waitFrom limit elapsed l m ending (⟨d + t.delay, t.item⟩ :: rest)) := by
  have hsum : elapsed + d + t.delay = elapsed + (d + t.delay) :=
    congrArg Duration.mk (Nat.add_assoc elapsed.nanos d.nanos t.delay.nanos)
  have hstep : l.step? (.error e) = some l := rfl
  simp only [waitFrom, hstep, hsum]
  by_cases hlate : limit < elapsed + d
  · have hlater : limit < elapsed + (d + t.delay) :=
      hsum ▸ Nat.lt_of_lt_of_le hlate (Nat.le_add_right _ t.delay.nanos)
    rw [if_pos hlate, if_pos hlater]
    exact ⟨rfl, rfl⟩
  · rw [if_neg hlate]
    by_cases hlater : limit < elapsed + (d + t.delay)
    · simp only [if_pos hlater]
      exact ⟨rfl, rfl⟩
    · simp only [if_neg hlater]
      cases l.step? t.item with
      | none => exact ⟨rfl, rfl⟩
      | some next => exact waitFrom_sameEnd rest _ next _ _

end Errors

theorem wait_confirmed {limit : Duration} {script : Script PodItem} {i : Nat} (hi : FirstDecisive script.items i)
    (ht : arrival script.items i ≤ limit) : wait limit script = ⟨.confirmed, arrival script.items i, i + 1⟩ := by
  have hends := wait_ends limit script
  generalize wait limit script = waited at hends ⊢
  cases hends with
  | confirmed j hj => rw [hi.unique hj]
  | closed he h => exact absurd hi.1 (h i)
  | timedOut taken h => exact absurd (h i hi.1) (Nat.not_lt_of_le ht)

theorem wait_confirmed_congr {limit : Duration} {script other : Script PodItem} {i : Nat}
    (hi : FirstDecisive script.items i) (ht : arrival script.items i ≤ limit)
    (h : other.items.take (i + 1) = script.items.take (i + 1)) : wait limit other = wait limit script := by
  have harrival : arrival other.items i = arrival script.items i := congrArg span h
  rw [wait_confirmed (hi.congr h) (harrival ▸ ht), wait_confirmed hi ht, harrival]

theorem wait_undecided {limit : Duration} {script : Script PodItem}
    (hlate : ∀ i, FirstDecisive script.items i → limit < arrival script.items i) :
    (script.ending = .closed → span script.items ≤ limit →
      wait limit script = ⟨.closed, span script.items, script.items.length⟩) ∧
    (script.ending = .silent ∨ limit < span script.items →
      (wait limit script).outcome = .timedOut ∧ (wait limit script).elapsed = limit) := by
  have hends := wait_ends limit script
  generalize wait limit script = waited at hends ⊢
  cases hends with
  | confirmed i hi ht => exact absurd (hlate i hi) (Nat.not_lt_of_le ht)
  | closed he h ht =>
    refine ⟨fun _ _ ↦ rfl, ?_⟩
    rintro (hs | hspan)
    · simp [he] at hs
    · exact absurd hspan (Nat.not_lt_of_le ht)
  | timedOut taken h he =>
    refine ⟨fun hc hspan ↦ ?_, fun _ ↦ ⟨rfl, rfl⟩⟩
    rcases he with hs | hlt
    · simp [hc] at hs
    · exact absurd hlt (Nat.not_lt_of_le hspan)

theorem wait_error {limit : Duration} {script : Script PodItem} {front back : List (Timed PodItem)} {d : Duration}
    {e : Error} {t : Timed PodItem} (h : script.items = front ++ ⟨d, .error e⟩ :: t :: back) :
    SameEnd (wait limit script) (wait limit ⟨front ++ ⟨d + t.delay, t.item⟩ :: back, script.ending⟩) := by
  simp only [wait, h]
  exact waitFrom_append_sameEnd (waitFrom_error d e t back) front .zero .none 0 0

theorem wait_last_error (limit : Duration) (front : List (Timed PodItem)) (d : Duration) (e : Error) :
    SameEnd (wait limit ⟨front ++ [⟨d, .error e⟩], .silent⟩) (wait limit ⟨front, .silent⟩) := by
  have hlast (elapsed : Duration) (l : Listing) (n m : Nat) :
      SameEnd (waitFrom limit elapsed l n .silent [⟨d, .error e⟩]) (waitFrom limit elapsed l m .silent []) := by
    have hstep : l.step? (.error e) = some l := rfl
    simp only [waitFrom, hstep]
    split <;> exact ⟨rfl, rfl⟩
  simpa only [wait, List.append_nil] using waitFrom_append_sameEnd hlast front .zero .none 0 0

/-- The first decisive item confirms the deletion when it comes in time, and nothing after it matters. Without one,
the wait ends when the stream closes in time, and at its limit otherwise. An error only delays what comes after it. On
an open watch no wait fails, and it is aborted if and only if the clock has no moment for its limit. -/
theorem wait_decided (limit : Duration) (script : Script PodItem) :
    (∀ i, FirstDecisive script.items i → arrival script.items i ≤ limit →
      wait limit script = ⟨.confirmed, arrival script.items i, i + 1⟩ ∧
      ∀ other : Script PodItem, other.items.take (i + 1) = script.items.take (i + 1) →
        wait limit other = wait limit script) ∧
    ((∀ i, FirstDecisive script.items i → limit < arrival script.items i) →
      (script.ending = .closed → span script.items ≤ limit →
        wait limit script = ⟨.closed, span script.items, script.items.length⟩) ∧
      (script.ending = .silent ∨ limit < span script.items →
        (wait limit script).outcome = .timedOut ∧ (wait limit script).elapsed = limit)) ∧
    (∀ front d e t back, script.items = front ++ ⟨d, .error e⟩ :: t :: back →
      SameEnd (wait limit script) (wait limit ⟨front ++ ⟨d + t.delay, t.item⟩ :: back, script.ending⟩)) ∧
    (∀ front d e, script = ⟨front ++ [⟨d, .error e⟩], .silent⟩ →
      SameEnd (wait limit script) (wait limit ⟨front, .silent⟩)) ∧
    ∀ {W : Type} (o : Outside W) (s : Setup) (space name : String) (w v : W), s.watchTimeout = limit →
      o.watchPod space name w = (some (.ok script), v) →
      perform (awaitDeletion (o.context s) space name) w =
        (match (o.now v).1.add? limit with
        | some _ => ⟨some (.ok (wait limit script).outcome), o.pass (wait limit script).elapsed (o.now v).2,
            [.watched space name (some (.ok script))]⟩
        | none => ⟨none, (o.now v).2, [.watched space name (some (.ok script))]⟩) ∧
      (Aborts (ExceptT.run (awaitDeletion (o.context s) space name)) w ↔ (o.now v).1.add? limit = none) := by
  refine ⟨?_, wait_undecided, ?_, ?_, ?_⟩
  · intro i hi ht
    exact ⟨wait_confirmed hi ht, fun other hother ↦ wait_confirmed_congr hi ht hother⟩
  · intro front d e t back h
    exact wait_error h
  · rintro front d e rfl
    exact wait_last_error limit front d e
  · rintro W o s space name w v rfl hopened
    have hcourse := awaitDeletion_course o s space name w
    have haborts := awaitDeletion_aborts_iff o s space name w
    rw [hopened] at hcourse haborts
    exact ⟨hcourse, haborts.trans (and_iff_right ⟨script, rfl⟩)⟩

/-- After an error, a listing without the pod ends just at the limit; the limit passes before a later one ends. -/
theorem wait_decided_listing :
    wait (.ofMillis 15) ⟨[⟨.ofMillis 5, .error (.configuration "")⟩, ⟨.ofMillis 10, .ok .listStarted⟩,
        ⟨.zero, .ok .listDone⟩, ⟨.zero, .ok .deleted⟩], .silent⟩ = ⟨.confirmed, .ofMillis 15, 3⟩ ∧
      (wait (.ofMillis 14) ⟨[⟨.ofMillis 15, .ok .deleted⟩], .closed⟩).outcome = .timedOut := by
  refine ⟨?_, ?_⟩
  · refine ((wait_decided _ _).1 2 ⟨.inr ⟨rfl, 1, by decide, rfl, fun k hk hk2 ↦ by omega⟩, ?_⟩ (by decide)).1
    intro j hj hd
    obtain rfl | rfl : j = 0 ∨ j = 1 := by omega
    · simp [Decisive, eventAt, Except.toOption] at hd
    · simp [Decisive, eventAt, Except.toOption] at hd
  · have hlate : ∀ i, FirstDecisive [⟨.ofMillis 15, .ok .deleted⟩] i →
        Duration.ofMillis 14 < arrival [⟨.ofMillis 15, .ok .deleted⟩] i := by
      intro i hi
      cases i with
      | zero => decide
      | succ i => exact absurd hi.1 (not_decisive_of_length_le (by simp))
    exact (((wait_decided _ _).2.1 hlate).2 (.inr (by decide))).1

def confirming : Outside Unit :=
  { Outside.agreeing [] with watchPod := fun _ _ w ↦ (some (.ok ⟨[⟨.zero, .ok .deleted⟩], .closed⟩), w) }

/-- The first item shows the pod gone and comes in time, but the limit is one that the clock cannot hold: the wait is
aborted. -/
theorem wait_not_decided :
    FirstDecisive [⟨.zero, .ok .deleted⟩] 0 ∧
      arrival [⟨.zero, .ok .deleted⟩] 0 ≤ .ofSeconds 9223372036854775808 ∧
      Task.run (awaitDeletion (confirming.context
        { Setup.oneHost default "root" with watchTimeout := .ofSeconds 9223372036854775808 }) "ns" "p") () =
          ⟨some none, (), [.watched "ns" "p" (some (.ok ⟨[⟨.zero, .ok .deleted⟩], .closed⟩))]⟩ :=
  ⟨⟨.inl rfl, fun j hj ↦ absurd hj (Nat.not_lt_zero j)⟩, by decide, rfl⟩

end SelfHealing.Watch
