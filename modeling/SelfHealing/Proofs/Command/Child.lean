import SelfHealing.Proofs.Command.Interleaving

/-!
A child process read to its end. Main statements: its output is read to the end as soon as both pipes are closed, and it
is done with when it has exited as well; then the lines of both pipes have been shown, each once and whole. A child that
writes to its output only gives that, in whatever pieces and at whatever moments it comes.
-/

namespace SelfHealing.Command

open Net Text Time

def written (pipe : Pipe) : List (Timed ChildEvent) → Octets
  | [] => []
  | t :: rest =>
    match t.item with
    | .wrote p bytes => if p = pipe then bytes ++ written pipe rest else written pipe rest
    | .closed p => if p = pipe then [] else written pipe rest
    | .exited _ => written pipe rest

def ChildEvent.exit? : ChildEvent → Option (Option Nat)
  | exited status => some status
  | wrote .. | closed .. => none

def exits (life : List (Timed ChildEvent)) : List (Option Nat) := life.filterMap fun t ↦ t.item.exit?

theorem exited_mem_iff {life : List (Timed ChildEvent)} {status : Option Nat} :
    status ∈ exits life ↔ .exited status ∈ life.map Timed.item := by
  simp only [exits, List.mem_filterMap, List.mem_map]
  refine exists_congr fun t ↦ and_congr_right fun _ ↦ ?_
  cases t.item <;> simp [ChildEvent.exit?]

def lifetime : List (Timed ChildEvent) → Duration
  | [] => .zero
  | t :: rest => t.delay + lifetime rest

/-- A child that writes some octets to its output and nothing else, closes both pipes and exits with a code, all within
the limit. It may do so in any pieces and in any order. -/
structure Writes (life : List (Timed ChildEvent)) (output : Octets) (code : UInt8) (limit : Option Duration) : Prop where
  out : written .out life = output
  err : written .err life = []
  closed : ∀ pipe, .closed pipe ∈ life.map Timed.item
  exited : exits life = [some code.toNat]
  intime : ∀ d ∈ limit, lifetime life ≤ d

structure Ended (life : List (Timed ChildEvent)) : Prop where
  closed : ∀ p, .closed p ∈ life.map Timed.item
  exited : ∃ status, .exited status ∈ life.map Timed.item

/-- Moves by which the events of a child come to its parent. -/
structure Carries (moves : List Move) (events : List (Timed ChildEvent)) : Prop where
  sent : ∀ p rest, sent p (written p rest) moves = written p (events ++ rest)
  finish : ∀ p, .finish p ∈ moves ↔ .closed p ∈ events.map Timed.item

theorem Carries.nil : Carries [] [] := ⟨fun _ _ ↦ rfl, by simp⟩

theorem Carries.append {front back : List Move} {events later : List (Timed ChildEvent)} (hfront : Carries front events)
    (hback : Carries back later) : Carries (front ++ back) (events ++ later) where
  sent p rest := by rw [sent_append, hback.sent, hfront.sent, List.append_assoc]
  finish p := by rw [List.mem_append, hfront.finish, hback.finish, List.map_append, List.mem_append]

namespace Collector

theorem sent_reads (c : Collector) (p : Pipe) (later : Octets) :
    sent p later (c.reads .out ++ c.reads .err) = later := by
  rw [sent_append, reads, reads, sent_takes, sent_takes]

theorem finish_not_mem_reads (c : Collector) (p : Pipe) : .finish p ∉ c.reads .out ++ c.reads .err := by
  simp [reads]

def Drained (c : Collector) : Prop := ∀ p, (c.pipe p).ended = true → (c.pipe p).isOpen = false

theorem drained_drain (c : Collector) : c.drain.Drained := fun _ hended ↦ drain_closed (drain_ended c _ ▸ hended)

end Collector

namespace Child

def observeAll (c : Child) (life : List (Timed ChildEvent)) : Child := life.foldl (fun c t ↦ c.observe t.item) c

variable {c : Child}

theorem observe_carries (c : Child) (t : Timed ChildEvent) :
    ∃ moves, (c.observe t.item).collector = c.collector.run moves ∧ Carries moves [t] := by
  have hmoved (move : Move) (hsent : ∀ p rest, sent p (written p rest) [move] = written p (t :: rest))
      (hfinish : ∀ p, .finish p = move ↔ .closed p = t.item) :
      ∃ moves, (c.collector.step move).drain = c.collector.run moves ∧ Carries moves [t] := by
    let c' := c.collector.step move
    refine ⟨move :: (c'.reads .out ++ c'.reads .err), rfl, fun p rest ↦ ?_, fun p ↦ ?_⟩
    · rw [← List.singleton_append, sent_append, Collector.sent_reads]
      exact hsent p rest
    · rw [List.mem_cons, or_iff_left (Collector.finish_not_mem_reads _ p), hfinish, List.map_singleton,
        List.mem_singleton]
  obtain ⟨d, event⟩ := t
  cases event with
  | wrote p bytes => exact hmoved (.arrive p bytes) (fun q rest ↦ rfl) (by simp)
  | closed p => exact hmoved (.finish p) (fun q rest ↦ rfl) (by simp)
  | exited status => exact ⟨[], rfl, fun p rest ↦ rfl, by simp⟩

theorem observeAll_carries (c : Child) (life : List (Timed ChildEvent)) :
    ∃ moves, (c.observeAll life).collector = c.collector.run moves ∧ Carries moves life := by
  induction life generalizing c with
  | nil => exact ⟨[], rfl, .nil⟩
  | cons t rest ih =>
    obtain ⟨front, hfront, hfirst⟩ := observe_carries c t
    obtain ⟨back, hback, hrest⟩ := ih (c.observe t.item)
    refine ⟨front ++ back, ?_, hfirst.append hrest⟩
    rw [Collector.run_append, ← hfront]
    exact hback

theorem observe_drained (h : c.collector.Drained) (event : ChildEvent) : (c.observe event).collector.Drained := by
  cases event with
  | wrote p bytes => exact Collector.drained_drain _
  | closed p => exact Collector.drained_drain _
  | exited status => exact h

theorem observeAll_drained (h : c.collector.Drained) (life : List (Timed ChildEvent)) :
    (c.observeAll life).collector.Drained := by
  induction life generalizing c with
  | nil => exact h
  | cons t rest ih => exact ih (observe_drained h t.item)

theorem start_drained : start.collector.Drained := fun p hended ↦ by cases p <;> cases hended

theorem isDone_observeAll (life : List (Timed ChildEvent)) :
    (start.observeAll life).collector.isDone = true ↔ ∀ p, .closed p ∈ life.map Timed.item := by
  obtain ⟨moves, hmoves, hcarries⟩ := observeAll_carries start life
  have hended (p : Pipe) : ((start.observeAll life).collector.pipe p).ended = true ↔ .closed p ∈ life.map Timed.item := by
    rw [hmoves, Collector.run_ended, hcarries.finish]
    exact or_iff_right (by cases p <;> exact Bool.false_ne_true)
  obtain ⟨_, hgathers⟩ := Collector.run_gathers Collector.start_sound moves fun _ ↦ []
  simp only [Collector.isDone_iff, ← hended]
  refine forall_congr' fun p ↦ ⟨fun hclosed ↦ ?_, observeAll_drained start_drained life p⟩
  rw [hmoves] at hclosed ⊢
  exact ((hgathers.sound p).closed hclosed).1

theorem observeAll_status (c : Child) (life : List (Timed ChildEvent)) :
    (∃ status, .exited status ∈ life.map Timed.item ∧
      (c.observeAll life).status = some ((status.map Int.ofNat).getD signalled)) ∨
    (∀ status, .exited status ∉ life.map Timed.item) ∧ (c.observeAll life).status = c.status := by
  induction life generalizing c with
  | nil => exact .inr ⟨fun _ ↦ List.not_mem_nil, rfl⟩
  | cons t rest ih =>
    rcases ih (c.observe t.item) with ⟨status, hmem, hstatus⟩ | ⟨hnone, hstatus⟩
    · exact .inl ⟨status, .tail _ hmem, hstatus⟩
    · obtain ⟨d, event⟩ := t
      cases event with
      | exited status => exact .inl ⟨status, .head _, hstatus⟩
      | wrote p bytes | closed p => exact .inr ⟨by simpa using hnone, hstatus⟩

theorem output?_eq_none_of_not_ended {life : List (Timed ChildEvent)} (h : ¬Ended life) :
    (start.observeAll life).output? = none := by
  unfold output?
  rcases observeAll_status start life with ⟨status, hmem, hstatus⟩ | ⟨-, hstatus⟩
  · have hopen : ¬(start.observeAll life).collector.isDone = true :=
      fun hdone ↦ h ⟨(isDone_observeAll life).mp hdone, status, hmem⟩
    simp only [hstatus, if_neg hopen]
  · simp only [hstatus]
    rfl

theorem output?_of_ended {life : List (Timed ChildEvent)} (h : Ended life) :
    ∃ status, .exited status ∈ life.map Timed.item ∧ (start.observeAll life).output? =
      some ⟨(status.map Int.ofNat).getD signalled, (start.observeAll life).collector.transcript.text⟩ := by
  rcases observeAll_status start life with ⟨status, hmem, hstatus⟩ | ⟨hnone, -⟩
  · refine ⟨status, hmem, ?_⟩
    simp only [Child.output?, hstatus, if_pos ((isDone_observeAll life).mpr h.closed)]
  · obtain ⟨status, hmem⟩ := h.exited
    exact absurd hmem (hnone status)

theorem any_lt_iff {limit : Option Duration} {now : Duration} :
    limit.any (· < now) = true ↔ ∃ d ∈ limit, d < now := by
  cases limit <;> simp

/-- A child is read to its end when some of its life, in time, comes to an output; otherwise it has none. -/
theorem collect_cases (c : Child) {limit : Option Duration} {elapsed : Duration} (h : ∀ d ∈ limit, elapsed ≤ d)
    (life : List (Timed ChildEvent)) :
    (∃ front output, front <+: life ∧ (∀ d ∈ limit, elapsed + lifetime front ≤ d) ∧
      (c.observeAll front).output? = some output ∧
      c.collect limit elapsed life = (.finished output, (c.observeAll front).collector.transcript.lines)) ∨
    ((∀ front, front <+: life → (∀ d ∈ limit, elapsed + lifetime front ≤ d) → (c.observeAll front).output? = none) ∧
      ∀ output, (c.collect limit elapsed life).1 ≠ .finished output) := by
  induction life generalizing c elapsed with
  | nil =>
    rcases ho : c.output? with _ | output
    · refine .inr ⟨fun front hfront _ ↦ ?_, fun output ↦ ?_⟩
      · rw [List.prefix_nil.mp hfront]
        exact ho
      · cases limit <;> simp [collect, ho]
    · exact .inl ⟨[], output, List.prefix_rfl, h, ho, by simp only [collect, ho]; rfl⟩
  | cons t rest ih =>
    have hsum (later : List (Timed ChildEvent)) : elapsed + t.delay + lifetime later = elapsed + lifetime (t :: later) :=
      congrArg Duration.mk (Nat.add_assoc _ _ _)
    rw [collect]
    rcases ho : c.output? with _ | output
    · by_cases hlate : limit.any (· < elapsed + t.delay)
      · obtain ⟨d, hd, hlt⟩ := any_lt_iff.mp hlate
        refine .inr ⟨fun front hfront hintime ↦ ?_, fun output ↦ by simp [hlate]⟩
        rcases List.prefix_cons_iff.mp hfront with rfl | ⟨later, rfl, -⟩
        · exact ho
        · have hnow : elapsed + t.delay ≤ elapsed + lifetime (t :: later) := hsum later ▸ Nat.le_add_right _ _
          exact absurd hlt (Nat.not_lt_of_le (Nat.le_trans hnow (hintime d hd)))
      · have hnow : ∀ d ∈ limit, elapsed + t.delay ≤ d := fun d hd ↦
          Nat.le_of_not_lt fun hlt ↦ hlate (any_lt_iff.mpr ⟨d, hd, hlt⟩)
        simp only [if_neg hlate]
        rcases ih (c.observe t.item) hnow with ⟨front, output, hfront, hintime, hout, hcollect⟩ | ⟨hnone, hfails⟩
        · exact .inl ⟨t :: front, output, List.cons_prefix_cons.mpr ⟨rfl, hfront⟩, hsum front ▸ hintime, hout, hcollect⟩
        · refine .inr ⟨fun front hfront hintime ↦ ?_, hfails⟩
          rcases List.prefix_cons_iff.mp hfront with rfl | ⟨later, rfl, hlater⟩
          · exact ho
          · exact hnone later hlater (hsum later ▸ hintime)
    · exact .inl ⟨[], output, List.nil_prefix, h, ho, rfl⟩

theorem start_collect_cases (limit : Option Duration) (life : List (Timed ChildEvent)) :
    (∃ front output, front <+: life ∧ (∀ d ∈ limit, lifetime front ≤ d) ∧ Ended front ∧
      (start.observeAll front).output? = some output ∧
      start.collect limit .zero life = (.finished output, (start.observeAll front).collector.transcript.lines)) ∨
    ((∀ front, front <+: life → (∀ d ∈ limit, lifetime front ≤ d) → ¬Ended front) ∧
      ∀ output, (start.collect limit .zero life).1 ≠ .finished output) := by
  have hzero (front : List (Timed ChildEvent)) : Duration.zero + lifetime front = lifetime front :=
    congrArg Duration.mk (Nat.zero_add _)
  have hcases := @collect_cases start limit .zero (fun d _ ↦ Nat.zero_le _) life
  simp only [hzero] at hcases
  refine hcases.imp ?_ ?_
  · rintro ⟨front, output, hfront, hintime, hout, hcollect⟩
    refine ⟨front, output, hfront, hintime, Classical.byContradiction fun hnot ↦ ?_, hout, hcollect⟩
    simp [output?_eq_none_of_not_ended hnot] at hout
  · rintro ⟨hnone, hfails⟩
    refine ⟨fun front hfront hintime hended ↦ ?_, hfails⟩
    obtain ⟨_, _, hout⟩ := output?_of_ended hended
    simp [hnone front hfront hintime] at hout

/-- A child that ends in time is read to its end, and what has been taken by then are the lines of both pipes. -/
theorem collect_ended {limit : Option Duration} {life front : List (Timed ChildEvent)} (hfront : front <+: life)
    (hended : Ended front) (hintime : ∀ d ∈ limit, lifetime front ≤ d) :
    ∃ moves taken status, .exited status ∈ life.map Timed.item ∧
      (Collector.start.run moves).isDone = true ∧ (∀ p, sent p [] moves = written p life) ∧
      Collector.start.Gathers (Collector.start.run moves) taken (fun p ↦ written p life) (fun _ ↦ []) ∧
      start.collect limit .zero life =
        (.finished ⟨(status.map Int.ofNat).getD signalled, (Collector.start.run moves).transcript.text⟩,
          (Collector.start.run moves).transcript.lines) := by
  rcases start_collect_cases limit life with ⟨seen, output, hseen, -, hall, hout, hcollect⟩ | ⟨hnone, -⟩
  · obtain ⟨status, hmem, hstatus⟩ := output?_of_ended hall
    obtain ⟨moves, hmoves, hcarries⟩ := observeAll_carries start seen
    obtain ⟨later, rfl⟩ := hseen
    -- Nothing more is written to a pipe that is closed.
    have hsent (p : Pipe) : sent p [] moves = written p (seen ++ later) :=
      (sent_of_finish ((hcarries.finish p).mpr (hall.closed p)) _).symm.trans (hcarries.sent p later)
    obtain ⟨taken, hgathers⟩ := Collector.run_gathers Collector.start_sound moves fun _ ↦ []
    simp only [hsent] at hgathers
    refine ⟨moves, taken, status, List.map_append ▸ List.mem_append_left _ hmem, ?_, hsent, hgathers, ?_⟩
    · rw [← show _ = Collector.start.run moves from hmoves]
      exact (isDone_observeAll seen).mpr hall.closed
    · obtain rfl := Option.some.inj (hout.symm.trans hstatus)
      rw [hcollect, hmoves]
      rfl
  · exact absurd hended (hnone front hfront hintime)

theorem collect_finished_iff (limit : Option Duration) (life : List (Timed ChildEvent)) :
    (∃ output, (start.collect limit .zero life).1 = .finished output) ↔
      ∃ front, front <+: life ∧ Ended front ∧ ∀ d ∈ limit, lifetime front ≤ d := by
  rcases start_collect_cases limit life with ⟨front, output, hfront, hintime, hended, -, hcollect⟩ | ⟨hnone, hfails⟩
  · exact iff_of_true ⟨output, congrArg Prod.fst hcollect⟩ ⟨front, hfront, hended, hintime⟩
  · refine iff_of_false (fun ⟨output, houtput⟩ ↦ hfails output houtput) ?_
    rintro ⟨front, hfront, hended, hintime⟩
    exact hnone front hfront hintime hended

end Child

/-- A child that writes some octets and exits in time gives them line by line. -/
theorem collect_writes {life : List (Timed ChildEvent)} {output : Octets} {code : UInt8} {limit : Option Duration}
    (h : Writes life output code limit) :
    Child.start.collect limit .zero life =
      (.finished ⟨code.toNat, (Transcript.ofOctets output).text⟩, (Transcript.ofOctets output).lines) := by
  have hexit (status : Option Nat) : .exited status ∈ life.map Timed.item ↔ status = some code.toNat := by
    rw [← exited_mem_iff, h.exited, List.mem_singleton]
  obtain ⟨moves, taken, status, hmem, hdone, -, hgathers, hcollect⟩ :=
    Child.collect_ended List.prefix_rfl ⟨h.closed, _, (hexit _).mpr rfl⟩ h.intime
  have hout := hgathers.done hdone .out
  have herr := hgathers.done hdone .err
  rw [h.out] at hout
  rw [h.err, splitLines_nil] at herr
  have hshown : (Collector.start.run moves).transcript = .ofOctets output := by
    rw [hgathers.shown, map_snd_of_linesFrom_err herr, hout]
    rfl
  rw [hcollect, hshown, (hexit status).mp hmem]
  rfl

/-- Whatever is written, cut up, ended and served in whatever order: what is shown at any time are lines of the two
pipes, each of them whole, and those of a pipe from its first one on and in their order. The loop is over only when both
pipes have ended, and then every line has been shown once. As soon as both have ended no reader has to wait, and there
are no more turns than lines and one for each end. The output of a child is read to its end exactly when both of its
pipes have been closed, and the child is done with if and only if it has exited as well, in time; then it gives such
lines, all of both pipes, and shows them so. -/
theorem lines_interleaved :
    (∀ moves : List Move,
      (∃ taken : List (Pipe × Octets),
        (Collector.start.run moves).transcript = .ofLines (taken.map Prod.snd) ∧
        (∀ p, linesFrom p taken <+: splitLines (sent p [] moves)) ∧
        ((Collector.start.run moves).isDone = true → ∀ p,
          .finish p ∈ moves ∧ linesFrom p taken = splitLines (sent p [] moves))) ∧
      ((∀ p, .finish p ∈ moves) → ∀ p, ((Collector.start.run moves).pipe p).isOpen = true →
        (Collector.start.run moves).isRead (.take p) = true) ∧
      Collector.start.turns moves ≤
        (splitLines (sent .out [] moves)).length + (splitLines (sent .err [] moves)).length + 2) ∧
    (∀ life : List (Timed ChildEvent),
      (Child.start.observeAll life).collector.isDone = true ↔ ∀ p, .closed p ∈ life.map Timed.item) ∧
    ∀ {m : Type → Type} [Monad m] (launch : Launch) (t : Target) (command : String) (limit : Option Duration)
      (sink : Option (Sink (OptionT m))), startFailure? command t.environment = none →
      ((∃ output, (Child.start.collect limit .zero (launch command t.environment)).1 = .finished output) ↔
        ∃ front, front <+: launch command t.environment ∧ Ended front ∧ ∀ d ∈ limit, lifetime front ≤ d) ∧
      ∀ front, front <+: launch command t.environment → Ended front → (∀ d ∈ limit, lifetime front ≤ d) →
        ∃ moves taken status,
          .exited status ∈ (launch command t.environment).map Timed.item ∧
          (Collector.start.run moves).isDone = true ∧
          (Collector.start.run moves).transcript = .ofLines (taken.map Prod.snd) ∧
          (∀ p, sent p [] moves = written p (launch command t.environment) ∧
            linesFrom p taken = splitLines (written p (launch command t.environment))) ∧
          localRunner launch t command limit sink = (do
            emit sink t.host (Transcript.ofLines (taken.map Prod.snd)).lines
            return .ok ⟨(status.map Int.ofNat).getD Child.signalled,
              (Transcript.ofLines (taken.map Prod.snd)).text⟩) := by
  refine ⟨?_, Child.isDone_observeAll, ?_⟩
  · intro moves
    obtain ⟨taken, hg⟩ := Collector.run_gathers Collector.start_sound moves fun _ ↦ []
    refine ⟨⟨taken, hg.ofLines, fun p ↦ ?_, fun hdone p ↦ ⟨?_, hg.done hdone p⟩⟩, fun hfinish p hopen ↦ ?_, ?_⟩
    · have hlines := hg.lines p
      rw [Collector.start_owed] at hlines
      exact ⟨_, hlines.symm⟩
    · have hended := ((hg.sound p).closed (Collector.isDone_iff.mp hdone p)).1
      rw [Collector.run_ended] at hended
      exact hended.resolve_left (by cases p <;> simp [Collector.start, Collector.pipe, PipeState.fresh])
    · exact PipeState.take?_ready hopen ((Collector.run_ended _ _ p).mpr (.inr (hfinish p)))
    · have hturns := Collector.run_turns Collector.start_sound moves fun _ ↦ []
      have hstart : (Collector.start.readsLeft fun p ↦ sent p [] moves) =
          (splitLines (sent .out [] moves)).length + 1 + ((splitLines (sent .err [] moves)).length + 1) := rfl
      omega
  · intro m _ launch t command limit sink hstarts
    refine ⟨Child.collect_finished_iff _ _, fun front hfront hended hintime ↦ ?_⟩
    obtain ⟨moves, taken, status, hmem, hdone, hsent, hgathers, hcollect⟩ :=
      Child.collect_ended hfront hended hintime
    refine ⟨moves, taken, status, hmem, hdone, hgathers.ofLines, fun p ↦ ⟨hsent p, hgathers.done hdone p⟩, ?_⟩
    simp only [localRunner, hstarts, hcollect, hgathers.ofLines]

def twofold : Launch := fun _ _ ↦
  [⟨.ofMillis 1, .wrote .out (encode "ab")⟩, ⟨.ofMillis 1, .wrote .err (encode "c\nd")⟩, ⟨.zero, .closed .out⟩,
    ⟨.zero, .exited (some 3)⟩, ⟨.ofMillis 1, .closed .err⟩]

/-- A child that exits before its errors are closed is read to its end just at the limit, and gives the lines of both
pipes. -/
theorem lines_interleaved_twofold :
    ∃ moves taken, (Collector.start.run moves).isDone = true ∧
      linesFrom .out taken = [encode "ab"] ∧ linesFrom .err taken = [encode "c\n", encode "d"] ∧
      localRunner (m := Id) twofold ⟨.v4 ⟨127, 0, 0, 1⟩, .empty, []⟩ "true" (some (.ofMillis 3)) none = (do
        emit none (.v4 ⟨127, 0, 0, 1⟩) (Transcript.ofLines (taken.map Prod.snd)).lines
        return .ok ⟨3, (Transcript.ofLines (taken.map Prod.snd)).text⟩) := by
  have hclosed (p : Pipe) : .closed p ∈ (twofold "true" []).map Timed.item := by
    cases p <;> simp [twofold]
  have hended : Ended (twofold "true" []) := ⟨hclosed, some 3, by simp [twofold]⟩
  obtain ⟨moves, taken, status, hmem, hdone, -, hlines, hrunner⟩ :=
    (lines_interleaved.2.2 (m := Id) twofold ⟨.v4 ⟨127, 0, 0, 1⟩, .empty, []⟩ "true" (some (.ofMillis 3)) none
      (by decide)).2 _ List.prefix_rfl hended (by decide)
  obtain rfl : status = some 3 := by simpa [twofold] using hmem
  refine ⟨moves, taken, hdone, ?_, ?_, hrunner⟩
  · rw [(hlines .out).2]
    decide +kernel
  · rw [(hlines .err).2]
    decide +kernel

/-- A reader that has given way before a newline came shows what it holds when it finds the end. -/
example : (Collector.start.run [.arrive .out (encode "ab"), .shift .out, .arrive .err (encode "c\n"), .take .err,
    .finish .out, .take .out]).transcript = ⟨"c\nab", ["c", "ab"]⟩ := by
  decide

end SelfHealing.Command
