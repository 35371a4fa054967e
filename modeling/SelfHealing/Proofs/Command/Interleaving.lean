import SelfHealing.Command.Child
import SelfHealing.Proofs.Command.Transcript

/-!
Two pipes read at once. Main statements: in whatever pieces and in whatever order octets and ends come, and whichever
reader is served first, the lines that are shown are the lines of both pipes, each of them once and whole and those of a
pipe in their order; and there are no more turns than lines and one for each end.
-/

namespace SelfHealing.Command

open Net Text

namespace PipeState

variable {p q : PipeState}

structure Sound (p : PipeState) : Prop where
  unfinished : newline ∉ p.held
  closed : p.isOpen = false → p.ended = true ∧ p.held = [] ∧ p.waiting = []

/-- What is still to be read from a pipe to which more will be written. -/
def owed (p : PipeState) (later : Octets) : Octets := p.held ++ (p.waiting ++ if p.ended then [] else later)

theorem owed_closed (hp : p.Sound) (h : p.isOpen = false) (later : Octets) : p.owed later = [] := by
  obtain ⟨hended, hheld, hwaiting⟩ := hp.closed h
  simp [owed, hended, hheld, hwaiting]

theorem arrive_owed (p : PipeState) (bytes later : Octets) : (p.arrive bytes).owed later = p.owed (bytes ++ later) := by
  unfold arrive
  cases hended : p.ended <;> simp [owed, hended]

theorem finish_owed (p : PipeState) (later : Octets) : p.finish.owed later = p.owed [] := by
  cases hended : p.ended <;> simp [owed, finish, hended]

theorem arrive_ended (p : PipeState) (bytes : Octets) : (p.arrive bytes).ended = p.ended := by
  unfold arrive
  split <;> rfl

theorem arrive_sound (hp : p.Sound) (bytes : Octets) : (p.arrive bytes).Sound := by
  unfold arrive
  cases hended : p.ended with
  | true => exact hp
  | false =>
    refine ⟨hp.unfinished, fun h ↦ ?_⟩
    have hnot := (hp.closed h).1
    simp [hended] at hnot

theorem finish_sound (hp : p.Sound) : p.finish.Sound :=
  ⟨hp.unfinished, fun h ↦ ⟨rfl, (hp.closed h).2⟩⟩

/-- All that a read does: it takes a line, or the tail at the end, or finds the end. -/
theorem take?_cases (p : PipeState) :
    (p.isOpen = false ∧ p.take? = none) ∨
    (p.isOpen = true ∧ newline ∈ p.waiting ∧ p.take? =
      some (p.held ++ (takeLine p.waiting).1, { p with held := [], waiting := (takeLine p.waiting).2 })) ∨
    (p.isOpen = true ∧ newline ∉ p.waiting ∧ p.ended = true ∧
      p.take? = some (p.held ++ p.waiting, ⟨[], [], true, !p.waiting.isEmpty⟩)) ∨
    (p.isOpen = true ∧ p.ended = false ∧ p.take? = none) := by
  unfold take?
  cases hopen : p.isOpen with
  | false => exact .inl ⟨rfl, rfl⟩
  | true =>
    by_cases hline : newline ∈ p.waiting
    · exact .inr (.inl ⟨rfl, hline, by simp [hline]⟩)
    · cases hended : p.ended with
      | true => exact .inr (.inr (.inl ⟨rfl, hline, rfl, by simp [hline]⟩))
      | false => exact .inr (.inr (.inr ⟨rfl, rfl, by simp [hline]⟩))

/-- A read takes the next line of what is owed, or finds that there is none. -/
theorem take?_lines (hp : p.Sound) {line : Octets} (h : p.take? = some (line, q)) (later : Octets) :
    splitLines (p.owed later) = (if line = [] then [] else [line]) ++ splitLines (q.owed later) := by
  rcases take?_cases p with ⟨-, hnone⟩ | ⟨-, hline, htake⟩ | ⟨-, hline, hended, htake⟩ | ⟨-, -, hnone⟩
  · cases hnone.symm.trans h
  · cases htake.symm.trans h
    have hne : p.held ++ (takeLine p.waiting).1 ≠ [] :=
      List.append_ne_nil_of_right_ne_nil _ (List.ne_nil_of_mem (newline_mem_takeLine hline))
    rw [if_neg hne]
    exact splitLines_line hp.unfinished hline _
  · cases htake.symm.trans h
    have htail : newline ∉ p.held ++ p.waiting := by simp [hp.unfinished, hline]
    simp only [owed, hended, if_true, List.append_nil, splitLines_nil]
    by_cases hne : p.held ++ p.waiting = []
    · rw [if_pos hne, hne, splitLines_nil]
    · rw [if_neg hne, splitLines_of_not_mem htail hne]
  · cases hnone.symm.trans h

theorem take?_sound {line : Octets} (h : p.take? = some (line, q)) : q.Sound := by
  rcases take?_cases p with ⟨-, hnone⟩ | ⟨hopen, -, htake⟩ | ⟨-, -, -, htake⟩ | ⟨-, -, hnone⟩
  · cases hnone.symm.trans h
  · cases htake.symm.trans h
    exact ⟨List.not_mem_nil, fun hclosed ↦ by simp [hopen] at hclosed⟩
  · cases htake.symm.trans h
    exact ⟨List.not_mem_nil, fun _ ↦ ⟨rfl, rfl, rfl⟩⟩
  · cases hnone.symm.trans h

theorem take?_ended {line : Octets} (h : p.take? = some (line, q)) : q.ended = p.ended := by
  rcases take?_cases p with ⟨-, hnone⟩ | ⟨-, -, htake⟩ | ⟨-, -, hended, htake⟩ | ⟨-, -, hnone⟩
  · cases hnone.symm.trans h
  · cases htake.symm.trans h
    rfl
  · cases htake.symm.trans h
    exact hended.symm
  · cases hnone.symm.trans h

/-- On a pipe that has ended, every read but the last leaves less to be read. -/
theorem take?_progress (hended : p.ended = true) :
    (p.isOpen = false ∧ p.take? = none) ∨
      ∃ line q, p.take? = some (line, q) ∧ (q.isOpen = false ∨ q.waiting.length < p.waiting.length) := by
  rcases take?_cases p with ⟨hclosed, hnone⟩ | ⟨-, hline, htake⟩ | ⟨-, -, -, htake⟩ | ⟨-, hnot, -⟩
  · exact .inl ⟨hclosed, hnone⟩
  · exact .inr ⟨_, _, htake, .inr (length_takeLine_snd_lt_of_mem hline)⟩
  · refine .inr ⟨_, _, htake, ?_⟩
    cases hwaiting : p.waiting with
    | nil => exact .inl rfl
    | cons b rest => exact .inr (Nat.zero_lt_succ _)
  · simp [hended] at hnot

theorem shift_owed (p : PipeState) (later : Octets) : p.shift.owed later = p.owed later := by
  simp only [shift, owed, List.append_assoc]
  rw [← List.append_assoc (p.waiting.takeWhile _), List.takeWhile_append_dropWhile]
  rfl

theorem shift_sound (hp : p.Sound) : p.shift.Sound := by
  refine ⟨?_, fun hclosed ↦ ?_⟩
  · simp only [shift, List.mem_append, not_or]
    refine ⟨hp.unfinished, fun hmem ↦ ?_⟩
    have hbefore := List.all_eq_true.mp List.all_takeWhile newline hmem
    simp at hbefore
  · obtain ⟨hended, hheld, hwaiting⟩ := hp.closed hclosed
    simp [shift, hended, hheld, hwaiting]

def readsLeft (p : PipeState) (later : Octets) : Nat :=
  if p.isOpen then (splitLines (p.owed later)).length + 1 else 0

theorem take?_readsLeft (hp : p.Sound) {line : Octets} (h : p.take? = some (line, q)) (later : Octets) :
    q.readsLeft later + 1 ≤ p.readsLeft later := by
  have hlines := congrArg List.length (take?_lines hp h later)
  rw [List.length_append] at hlines
  rcases take?_cases p with ⟨-, hnone⟩ | ⟨hopen, hline, htake⟩ | ⟨hopen, -, -, htake⟩ | ⟨-, -, hnone⟩
  · cases hnone.symm.trans h
  · cases htake.symm.trans h
    have hne : p.held ++ (takeLine p.waiting).1 ≠ [] :=
      List.append_ne_nil_of_right_ne_nil _ (List.ne_nil_of_mem (newline_mem_takeLine hline))
    rw [if_neg hne, List.length_singleton] at hlines
    simp only [readsLeft, hopen, if_true] at hlines ⊢
    omega
  · cases htake.symm.trans h
    by_cases hwaiting : p.waiting = []
    · simp only [readsLeft, hopen, hwaiting]
      simp
    · have hne : p.held ++ p.waiting ≠ [] := List.append_ne_nil_of_right_ne_nil _ hwaiting
      rw [if_neg hne, List.length_singleton] at hlines
      simp only [readsLeft, hopen, if_true]
      split <;> omega
  · cases hnone.symm.trans h

theorem take?_ready (hopen : p.isOpen = true) (hended : p.ended = true) : p.take?.isSome = true := by
  rcases take?_progress hended with ⟨hclosed, -⟩ | ⟨line, q, htake, -⟩
  · simp [hopen] at hclosed
  · rw [htake]
    rfl

end PipeState

/-- What some moves write to a pipe, and what is written to it later. Nothing is written after the end. -/
def sent (p : Pipe) (later : Octets) : List Move → Octets
  | [] => later
  | .arrive q bytes :: rest => if q = p then bytes ++ sent p later rest else sent p later rest
  | .finish q :: rest => if q = p then [] else sent p later rest
  | .shift _ :: rest => sent p later rest
  | .take _ :: rest => sent p later rest

theorem sent_append (p : Pipe) (later : Octets) (front back : List Move) :
    sent p later (front ++ back) = sent p (sent p later back) front := by
  induction front with
  | nil => rfl
  | cons move rest ih => cases move <;> simp only [List.cons_append, sent, ih]

theorem sent_of_finish {p : Pipe} {moves : List Move} (h : .finish p ∈ moves) (later : Octets) :
    sent p later moves = sent p [] moves := by
  induction moves with
  | nil => cases h
  | cons move rest ih =>
    by_cases hfirst : move = .finish p
    · simp [hfirst, sent]
    · have hrest := ih ((List.mem_cons.mp h).resolve_left (Ne.symm hfirst))
      cases move <;> simp only [sent, hrest]

theorem sent_takes (p q : Pipe) (later : Octets) (n : Nat) : sent p later (List.replicate n (.take q)) = later := by
  induction n with
  | zero => rfl
  | succ n ih => exact ih

def linesFrom (p : Pipe) (taken : List (Pipe × Octets)) : List Octets := (taken.filter (·.1 = p)).map Prod.snd

def Transcript.ofLines (lines : List Octets) : Transcript :=
  ⟨String.join (lines.map decodeLossy), lines.map fun line ↦ chomp (decodeLossy line)⟩

theorem linesFrom_append (p : Pipe) (front back : List (Pipe × Octets)) :
    linesFrom p (front ++ back) = linesFrom p front ++ linesFrom p back := by
  simp only [linesFrom, List.filter_append, List.map_append]

theorem map_snd_of_linesFrom_err {taken : List (Pipe × Octets)} (h : linesFrom .err taken = []) :
    taken.map Prod.snd = linesFrom .out taken := by
  have hall : ∀ x ∈ taken, decide (x.1 = .out) = true := by
    intro x hx
    have hnot := List.filter_eq_nil_iff.mp (List.map_eq_nil_iff.mp h) x hx
    rcases x with ⟨_ | _, line⟩
    · rfl
    · exact absurd rfl hnot
  rw [linesFrom, List.filter_eq_self.mpr hall]

namespace Transcript

theorem pushAll_append (t : Transcript) (front back : List Octets) :
    t.pushAll (front ++ back) = (t.pushAll front).pushAll back := List.foldl_append

theorem pushAll_ofLines {lines : List Octets} (h : ∀ line ∈ lines, line ≠ []) (t : Transcript) :
    t.pushAll lines = ⟨t.text ++ (ofLines lines).text, t.lines ++ (ofLines lines).lines⟩ := by
  induction lines generalizing t with
  | nil => simp [pushAll_nil, ofLines]
  | cons line rest ih =>
    obtain ⟨hline, hrest⟩ := List.forall_mem_cons.mp h
    have hpush : t.push line = ⟨t.text ++ decodeLossy line, t.lines ++ [chomp (decodeLossy line)]⟩ := by
      rw [push, if_neg (mt List.isEmpty_iff.mp hline)]
    rw [pushAll_cons, ih hrest, hpush]
    simp [ofLines, String.append_assoc]

end Transcript

namespace Collector

variable {c c' : Collector}

@[simp] theorem pipe_setPipe (c : Collector) (state : PipeState) (p : Pipe) : (c.setPipe state p).pipe p = state := by
  cases p <;> rfl

theorem pipe_setPipe_of_ne (c : Collector) (state : PipeState) {p q : Pipe} (h : q ≠ p) :
    (c.setPipe state p).pipe q = c.pipe q := by
  cases p <;> cases q <;> first | rfl | exact absurd rfl h

@[simp] theorem transcript_setPipe (c : Collector) (state : PipeState) (p : Pipe) :
    (c.setPipe state p).transcript = c.transcript := by
  cases p <;> rfl

theorem step_take (c : Collector) (p : Pipe) :
    c.step (.take p) =
      match (c.pipe p).take? with
      | some (line, state) => { c.setPipe state p with transcript := c.transcript.push line }
      | none => c := rfl

theorem step_take_pipe {p : Pipe} {line : Octets} {state : PipeState} (h : (c.pipe p).take? = some (line, state)) :
    (c.step (.take p)).pipe p = state := by
  rw [step_take, h]
  cases p <;> rfl

theorem step_take_other (c : Collector) {p q : Pipe} (h : q ≠ p) : (c.step (.take p)).pipe q = c.pipe q := by
  rw [step_take]
  cases (c.pipe p).take? with
  | none => rfl
  | some taken => cases p <;> cases q <;> first | rfl | exact absurd rfl h

theorem run_cons (c : Collector) (move : Move) (rest : List Move) : c.run (move :: rest) = (c.step move).run rest := rfl

theorem run_append (c : Collector) (front back : List Move) : c.run (front ++ back) = (c.run front).run back :=
  List.foldl_append

theorem takes_other (c : Collector) {p q : Pipe} (h : q ≠ p) (n : Nat) :
    (c.run (List.replicate n (.take p))).pipe q = c.pipe q := by
  induction n generalizing c with
  | zero => rfl
  | succ n ih => rw [List.replicate_succ, run_cons, ih, step_take_other c h]

theorem takes_ended (c : Collector) (p : Pipe) (n : Nat) :
    ((c.run (List.replicate n (.take p))).pipe p).ended = (c.pipe p).ended := by
  induction n generalizing c with
  | zero => rfl
  | succ n ih =>
    rw [List.replicate_succ, run_cons, ih]
    rcases htake : (c.pipe p).take? with _ | ⟨line, state⟩
    · rw [step_take, htake]
    · rw [step_take_pipe htake, PipeState.take?_ended htake]

theorem takes_closed {p : Pipe} {n : Nat} (hended : (c.pipe p).ended = true) (hn : (c.pipe p).waiting.length < n) :
    ((c.run (List.replicate n (.take p))).pipe p).isOpen = false := by
  have hstays (c : Collector) (hnone : (c.pipe p).take? = none) (n : Nat) :
      c.run (List.replicate n (.take p)) = c := by
    induction n with
    | zero => rfl
    | succ n ih => rw [List.replicate_succ, run_cons, step_take, hnone, ih]
  induction n generalizing c with
  | zero => exact absurd hn (Nat.not_lt_zero _)
  | succ n ih =>
    rw [List.replicate_succ, run_cons]
    rcases PipeState.take?_progress hended with ⟨hclosed, hnone⟩ | ⟨line, state, htake, hclosed | hless⟩
    · rw [step_take, hnone, hstays c hnone]
      exact hclosed
    · have hnone : ((c.step (.take p)).pipe p).take? = none := by
        rw [step_take_pipe htake]
        simp [PipeState.take?, hclosed]
      rw [hstays _ hnone, step_take_pipe htake]
      exact hclosed
    · apply ih
      · rw [step_take_pipe htake, PipeState.take?_ended htake]
        exact hended
      · rw [step_take_pipe htake]
        omega

theorem drain_eq (c : Collector) :
    c.drain = (c.run (c.reads .out)).run (c.reads .err) := run_append c _ _

theorem drain_ended (c : Collector) (p : Pipe) : (c.drain.pipe p).ended = (c.pipe p).ended := by
  cases p with
  | out => rw [drain_eq, reads, reads, takes_other _ (by decide), takes_ended]
  | err => rw [drain_eq, reads, reads, takes_ended, takes_other _ (by decide)]

theorem drain_closed {p : Pipe} (hended : (c.pipe p).ended = true) : (c.drain.pipe p).isOpen = false := by
  cases p with
  | out =>
    rw [drain_eq, reads, reads, takes_other _ (by decide)]
    exact takes_closed hended (by omega)
  | err =>
    have hother : (c.run (List.replicate ((c.pipe .out).waiting.length + 2) (.take .out))).pipe .err = c.pipe .err :=
      takes_other c (by decide) _
    rw [drain_eq, reads, reads]
    apply takes_closed
    · rw [hother]
      exact hended
    · rw [hother]
      omega

/-- From one collector to another: what has been taken on the way, while `now` was still to be written before and
`later` is still to be written after it. -/
structure Gathers (c c' : Collector) (taken : List (Pipe × Octets)) (now later : Pipe → Octets) : Prop where
  sound : ∀ p, (c'.pipe p).Sound
  filled : ∀ x ∈ taken, x.2 ≠ []
  shown : c'.transcript = c.transcript.pushAll (taken.map Prod.snd)
  lines : ∀ p, splitLines ((c.pipe p).owed (now p)) = linesFrom p taken ++ splitLines ((c'.pipe p).owed (later p))

theorem Gathers.trans {c'' : Collector} {front back : List (Pipe × Octets)} {now next later : Pipe → Octets}
    (h : c.Gathers c' front now next) (h' : c'.Gathers c'' back next later) :
    c.Gathers c'' (front ++ back) now later where
  sound := h'.sound
  filled := List.forall_mem_append.mpr ⟨h.filled, h'.filled⟩
  shown := by rw [h'.shown, h.shown, List.map_append, Transcript.pushAll_append]
  lines p := by rw [h.lines, h'.lines, linesFrom_append, List.append_assoc]

theorem gathers_setPipe (hc : ∀ p, (c.pipe p).Sound) {p : Pipe} {state : PipeState} {now later : Pipe → Octets}
    (hsound : state.Sound) (howed : state.owed (later p) = (c.pipe p).owed (now p))
    (hother : ∀ q, q ≠ p → later q = now q) : c.Gathers (c.setPipe state p) [] now later where
  sound q := by
    by_cases hq : q = p
    · rw [hq, pipe_setPipe]
      exact hsound
    · rw [pipe_setPipe_of_ne c state hq]
      exact hc q
  filled := List.forall_mem_nil _
  shown := transcript_setPipe c state p
  lines q := by
    by_cases hq : q = p
    · rw [hq, pipe_setPipe, howed]
      rfl
    · rw [pipe_setPipe_of_ne c state hq, hother q hq]
      rfl

theorem gathers_take (hc : ∀ p, (c.pipe p).Sound) (p : Pipe) (later : Pipe → Octets) :
    ∃ taken, c.Gathers (c.step (.take p)) taken later later := by
  rcases htake : (c.pipe p).take? with _ | ⟨line, state⟩
  · refine ⟨[], ?_, List.forall_mem_nil _, ?_, fun q ↦ ?_⟩
    all_goals rw [step_take, htake]
    · exact hc
    · rfl
    · rfl
  · have hlines := PipeState.take?_lines (hc p) htake (later p)
    refine ⟨if line = [] then [] else [(p, line)], fun q ↦ ?_, ?_, ?_, fun q ↦ ?_⟩
    · by_cases hq : q = p
      · rw [hq, step_take_pipe htake]
        exact PipeState.take?_sound htake
      · rw [step_take_other c hq]
        exact hc q
    · split
      · exact List.forall_mem_nil _
      · rename_i hline
        exact List.forall_mem_singleton.mpr hline
    · have hshown : (c.step (.take p)).transcript = c.transcript.push line := by
        rw [step_take, htake]
      rw [hshown]
      by_cases hline : line = []
      · rw [if_pos hline, hline]
        rfl
      · rw [if_neg hline]
        rfl
    · by_cases hq : q = p
      · rw [hq, step_take_pipe htake, hlines]
        by_cases hline : line = []
        · simp [hline, linesFrom]
        · simp [hline, linesFrom]
      · rw [step_take_other c hq]
        by_cases hline : line = []
        · simp [hline, linesFrom]
        · simp [hline, linesFrom, Ne.symm hq]

/-- Whether a move is a read that finds something or the end; each turn of the loop is one of these. -/
def isRead (c : Collector) : Move → Bool
  | .take p => ((c.pipe p).take?).isSome
  | .arrive .. | .finish _ | .shift _ => false

/-- A move is a read, or it changes one pipe, and neither closes it nor changes what is owed. -/
theorem step_cases (c : Collector) (move : Move) (rest : List Move) (later : Pipe → Octets) :
    (∃ p, move = .take p) ∨
    ∃ p state, c.step move = c.setPipe state p ∧ c.isRead move = false ∧
      ((c.pipe p).Sound → state.Sound) ∧ state.isOpen = (c.pipe p).isOpen ∧
      state.owed (sent p (later p) rest) = (c.pipe p).owed (sent p (later p) (move :: rest)) ∧
      ∀ q, q ≠ p → sent q (later q) rest = sent q (later q) (move :: rest) := by
  cases move with
  | arrive p bytes =>
    refine .inr ⟨p, (c.pipe p).arrive bytes, rfl, rfl, fun hp ↦ PipeState.arrive_sound hp bytes, ?_, ?_,
      fun q hq ↦ ?_⟩
    · unfold PipeState.arrive
      split <;> rfl
    · rw [PipeState.arrive_owed]
      simp [sent]
    · simp [sent, Ne.symm hq]
  | finish p =>
    refine .inr ⟨p, (c.pipe p).finish, rfl, rfl, PipeState.finish_sound, rfl, ?_, fun q hq ↦ ?_⟩
    · rw [PipeState.finish_owed]
      simp [sent]
    · simp [sent, Ne.symm hq]
  | shift p =>
    exact .inr ⟨p, (c.pipe p).shift, rfl, rfl, PipeState.shift_sound, rfl, PipeState.shift_owed _ _, fun q _ ↦ rfl⟩
  | take p => exact .inl ⟨p, rfl⟩

theorem step_gathers (hc : ∀ p, (c.pipe p).Sound) (move : Move) (rest : List Move) (later : Pipe → Octets) :
    ∃ taken, c.Gathers (c.step move) taken (fun p ↦ sent p (later p) (move :: rest))
      fun p ↦ sent p (later p) rest := by
  rcases step_cases c move rest later with ⟨p, rfl⟩ | ⟨p, state, hstep, -, hsound, -, howed, hother⟩
  · exact gathers_take hc p _
  · rw [hstep]
    exact ⟨[], gathers_setPipe hc (hsound (hc p)) howed hother⟩

theorem run_gathers (hc : ∀ p, (c.pipe p).Sound) (moves : List Move) (later : Pipe → Octets) :
    ∃ taken, c.Gathers (c.run moves) taken (fun p ↦ sent p (later p) moves) later := by
  induction moves generalizing c with
  | nil => exact ⟨[], hc, List.forall_mem_nil _, rfl, fun p ↦ rfl⟩
  | cons move rest ih =>
    obtain ⟨front, hfront⟩ := step_gathers hc move rest later
    obtain ⟨back, hback⟩ := ih hfront.sound
    exact ⟨front ++ back, hfront.trans hback⟩

theorem step_ended (c : Collector) (move : Move) (p : Pipe) :
    ((c.step move).pipe p).ended = true ↔ (c.pipe p).ended = true ∨ move = .finish p := by
  have hset {q : Pipe} {state : PipeState} (h : state.ended = (c.pipe q).ended) :
      ((c.setPipe state q).pipe p).ended = true ↔ (c.pipe p).ended = true := by
    by_cases hp : p = q
    · rw [hp, pipe_setPipe, h]
    · rw [pipe_setPipe_of_ne c state hp]
  cases move with
  | arrive q bytes => exact (hset (PipeState.arrive_ended (c.pipe q) bytes)).trans (by simp)
  | shift q =>
    have hshift : (c.pipe q).shift.ended = (c.pipe q).ended := rfl
    exact (hset hshift).trans (by simp)
  | finish q =>
    change ((c.setPipe (c.pipe q).finish q).pipe p).ended = true ↔ _
    by_cases hp : p = q
    · simp [hp, PipeState.finish]
    · simp [pipe_setPipe_of_ne c _ hp, Ne.symm hp]
  | take q =>
    have hkept : ((c.step (.take q)).pipe p).ended = (c.pipe p).ended := by
      by_cases hp : p = q
      · rw [hp]
        exact takes_ended c q 1
      · rw [step_take_other c hp]
    simp [hkept]

theorem run_ended (c : Collector) (moves : List Move) (p : Pipe) :
    ((c.run moves).pipe p).ended = true ↔ (c.pipe p).ended = true ∨ .finish p ∈ moves := by
  induction moves generalizing c with
  | nil => simp [run]
  | cons move rest ih => rw [run_cons, ih, step_ended, List.mem_cons, or_assoc, @eq_comm _ move]

def turns (c : Collector) : List Move → Nat
  | [] => 0
  | move :: rest => (if c.isRead move then 1 else 0) + turns (c.step move) rest

def readsLeft (c : Collector) (later : Pipe → Octets) : Nat :=
  (c.pipe .out).readsLeft (later .out) + (c.pipe .err).readsLeft (later .err)

theorem setPipe_readsLeft {p : Pipe} {state : PipeState} {now later : Pipe → Octets}
    (hopen : state.isOpen = (c.pipe p).isOpen) (howed : state.owed (later p) = (c.pipe p).owed (now p))
    (hother : ∀ q, q ≠ p → later q = now q) :
    (c.setPipe state p).readsLeft later = c.readsLeft now := by
  have hleft (q : Pipe) : ((c.setPipe state p).pipe q).readsLeft (later q) = (c.pipe q).readsLeft (now q) := by
    by_cases hq : q = p
    · rw [hq, pipe_setPipe, PipeState.readsLeft, PipeState.readsLeft, hopen, howed]
    · rw [pipe_setPipe_of_ne c state hq, hother q hq]
  simp only [readsLeft, hleft]

theorem take_readsLeft (hc : ∀ p, (c.pipe p).Sound) (p : Pipe) (later : Pipe → Octets) :
    (if c.isRead (.take p) then 1 else 0) + (c.step (.take p)).readsLeft later ≤ c.readsLeft later := by
  rcases htake : (c.pipe p).take? with _ | ⟨line, state⟩
  · simp [isRead, step_take, htake]
  · have hread : c.isRead (.take p) = true := by rw [isRead, htake]; rfl
    have hless := PipeState.take?_readsLeft (hc p) htake (later p)
    rw [← step_take_pipe htake] at hless
    rw [hread, if_pos rfl]
    unfold readsLeft
    cases p with
    | out =>
      rw [step_take_other c (by decide : Pipe.err ≠ .out)]
      omega
    | err =>
      rw [step_take_other c (by decide : Pipe.out ≠ .err)]
      omega

theorem step_turns (hc : ∀ p, (c.pipe p).Sound) (move : Move) (rest : List Move) (later : Pipe → Octets) :
    (if c.isRead move then 1 else 0) + (c.step move).readsLeft (fun p ↦ sent p (later p) rest) ≤
      c.readsLeft fun p ↦ sent p (later p) (move :: rest) := by
  rcases step_cases c move rest later with ⟨p, rfl⟩ | ⟨p, state, hstep, hread, -, hopen, howed, hother⟩
  · exact take_readsLeft hc p _
  · rw [hstep, hread, if_neg Bool.false_ne_true, Nat.zero_add]
    exact Nat.le_of_eq (setPipe_readsLeft hopen howed hother)

/-- There are no more turns than lines, and one for the end of each pipe. -/
theorem run_turns (hc : ∀ p, (c.pipe p).Sound) (moves : List Move) (later : Pipe → Octets) :
    c.turns moves + (c.run moves).readsLeft later ≤ c.readsLeft fun p ↦ sent p (later p) moves := by
  induction moves generalizing c with
  | nil => exact Nat.le_of_eq (Nat.zero_add _)
  | cons move rest ih =>
    obtain ⟨_, hstep⟩ := step_gathers hc move rest later
    have hturn := step_turns hc move rest later
    have hrest := ih hstep.sound
    rw [turns, run_cons]
    omega

theorem start_sound (p : Pipe) : (start.pipe p).Sound := by
  cases p <;> exact ⟨List.not_mem_nil, nofun⟩

theorem start_owed (p : Pipe) (later : Octets) : (start.pipe p).owed later = later := by
  cases p <;> rfl

theorem isDone_iff : c.isDone = true ↔ ∀ p, (c.pipe p).isOpen = false := by
  constructor
  · intro hdone p
    simp only [isDone, Bool.and_eq_true, Bool.not_eq_true'] at hdone
    cases p
    · exact hdone.1
    · exact hdone.2
  · intro hclosed
    have hout : c.out.isOpen = false := hclosed .out
    have herr : c.err.isOpen = false := hclosed .err
    simp [isDone, hout, herr]

theorem Gathers.ofLines {taken : List (Pipe × Octets)} {now later : Pipe → Octets}
    (h : start.Gathers c taken now later) : c.transcript = .ofLines (taken.map Prod.snd) := by
  have hfilled : ∀ line ∈ taken.map Prod.snd, line ≠ [] := by
    intro line hline
    obtain ⟨x, hx, rfl⟩ := List.mem_map.mp hline
    exact h.filled x hx
  have hshown : c.transcript = Transcript.empty.pushAll (taken.map Prod.snd) := h.shown
  rw [hshown, Transcript.pushAll_ofLines hfilled]
  simp [Transcript.empty]

theorem Gathers.done {taken : List (Pipe × Octets)} {now later : Pipe → Octets}
    (h : start.Gathers c taken now later) (hdone : c.isDone = true) (p : Pipe) :
    linesFrom p taken = splitLines (now p) := by
  have hlines := h.lines p
  rw [start_owed, PipeState.owed_closed (h.sound p) (isDone_iff.mp hdone p), splitLines_nil, List.append_nil] at hlines
  exact hlines.symm

end Collector

end SelfHealing.Command
