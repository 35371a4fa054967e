import SelfHealing.Kubernetes.Client
import SelfHealing.Proofs.Watch.Deletion

/-!
How a watch is opened. Main statement: an error before the end of the first listing is the failure of the opening, and
otherwise the stream is all that the watcher tells, item for item, with the first listing at its front. A wait on the
stream ends as a wait on the watcher itself would.
-/

namespace SelfHealing

open Time Watch

namespace Time

def Timed.map {α β : Type} (f : α → β) (t : Timed α) : Timed β := ⟨t.delay, f t.item⟩

def Script.map {α β : Type} (f : α → β) (s : Script α) : Script β := ⟨s.items.map (Timed.map f), s.ending⟩

end Time

namespace Kubernetes.Watcher

/-- What a watcher yields: an event, or the reason of an error. -/
abbrev RawItem := Except String WatcherEvent

def told : RawItem → WatcherItem
  | .ok event => .ok event
  | .error reason => failed reason

def IsTold (item : WatcherItem) : Prop := ∃ raw, told raw = item

theorem isTold_ok (event : WatcherEvent) : IsTold (.ok event) := ⟨.ok event, rfl⟩

theorem isTold_failed (reason : String) : IsTold (failed reason) := ⟨.error reason, rfl⟩

theorem restart_told (reason : String) : ∀ item ∈ (restart reason).items, IsTold item := by
  intro item h
  simp only [restart, List.mem_cons, List.not_mem_nil, or_false] at h
  rcases h with rfl | rfl
  · exact isTold_failed reason
  · exact isTold_ok .init

theorem cons_told {item : WatcherItem} {p : Progress} (hi : IsTold item)
    (hp : ∀ later ∈ p.items, IsTold later) : ∀ later ∈ (p.cons item).items, IsTold later :=
  List.forall_mem_cons.mpr ⟨hi, hp⟩

theorem listed_told (page : Page) : ∀ item ∈ (listed page).items, IsTold item := by
  have hseen : ∀ item ∈ page.pods.map fun _ ↦ (.ok .initApply : WatcherItem), IsTold item := by
    intro item h
    obtain ⟨pod, -, rfl⟩ := List.mem_map.mp h
    exact isTold_ok .initApply
  unfold listed
  split
  · exact hseen
  · exact List.forall_mem_append.mpr ⟨hseen, by simpa using isTold_ok .initDone⟩
  · exact restart_told _

theorem followed_told (version : String) (changes : List (Except String Change)) :
    ∀ item ∈ (followed version changes).items, IsTold item := by
  induction changes generalizing version with
  | nil => exact List.forall_mem_nil _
  | cons change rest ih =>
    cases change with
    | error reason => exact cons_told (isTold_failed reason) (ih version)
    | ok change =>
      cases change with
      | added pod | modified pod | deleted pod =>
        simp only [followed]
        cases filled? pod.version with
        | some next => exact cons_told (isTold_ok _) (ih next)
        | none => exact restart_told noVersion
      | bookmark next => exact ih next
      | failed report =>
        simp only [followed]
        split
        · exact restart_told report.message
        · exact cons_told (isTold_failed report.message) (ih version)

theorem advance_told (phase : Phase) (a : Answer) : ∀ item ∈ (phase.advance a).items, IsTold item := by
  rcases phase with continuation | version
  · rcases a with reason | r
    · exact restart_told reason
    · simp only [Phase.advance]
      cases r.page with
      | ok page => exact listed_told page
      | error reason => exact restart_told reason
  · rcases a with reason | r
    · simpa [Phase.advance] using isTold_failed reason
    · exact followed_told version r.changes

theorem tell_items (pace : Pace) (items : List WatcherItem) : (tell pace items).1.map Step.item = items := by
  induction items generalizing pace with
  | nil => rfl
  | cons item rest ih => exact congrArg (item :: ·) (ih (pace.after item))

theorem courseFrom_told (s : Scope) (pace : Pace) (phase : Phase) (answers : List Answer) :
    ∀ step ∈ (courseFrom s pace phase answers).steps, IsTold step.item := by
  induction answers generalizing pace phase with
  | nil => exact List.forall_mem_nil _
  | cons a rest ih =>
    refine List.forall_mem_append.mpr ⟨?_, ih _ _⟩
    intro step h
    apply advance_told phase a
    rw [← tell_items (pace.ask (phase.request s)) (phase.advance a).items]
    exact List.mem_map_of_mem h

theorem course_told (s : Scope) (answers : List Answer) : ∀ t ∈ (course s answers).script.items, IsTold t.item := by
  intro t h
  obtain ⟨step, hstep, rfl⟩ := List.mem_map.mp h
  rcases List.mem_cons.mp hstep with rfl | hlater
  · exact isTold_ok .init
  · exact courseFrom_told s _ _ answers step hlater

end Kubernetes.Watcher

namespace Watch

open Kubernetes Kubernetes.Watcher

def Early (t : Timed RawItem) : Prop := ∃ event, t.item = .ok event ∧ event ≠ .initDone

def translate (item : RawItem) : PodItem := podItem (told item)

def atOnce (n : Nat) (items : List (Timed PodItem)) : List (Timed PodItem) :=
  ((items.take n).map Timed.item).map (⟨.zero, ·⟩) ++ items.drop n

/-- All that can come of opening a watch. -/
inductive Opens (raw : Script RawItem) : Option Opening → Prop
  | failed {front back : List (Timed RawItem)} {d : Duration} {reason : String}
      (h : raw.items = front ++ ⟨d, .error reason⟩ :: back) (hfront : ∀ t ∈ front, Early t) :
      Opens raw (some ⟨.error (.clusterApi "watch pods" reason),
        span ((raw.map translate).items.take (front.length + 1)), front.length + 1⟩)
  | listed {front back : List (Timed RawItem)} {d : Duration}
      (h : raw.items = front ++ ⟨d, .ok .initDone⟩ :: back) (hfront : ∀ t ∈ front, Early t) :
      Opens raw (some ⟨.ok ⟨atOnce (front.length + 1) (raw.map translate).items, raw.ending⟩,
        span ((raw.map translate).items.take (front.length + 1)), front.length + 1⟩)
  | closed (he : raw.ending = .closed) (hall : ∀ t ∈ raw.items, Early t) :
      Opens raw (some ⟨.ok ⟨atOnce raw.items.length (raw.map translate).items, .closed⟩,
        span ((raw.map translate).items.take raw.items.length), raw.items.length⟩)
  | endless (he : raw.ending = .silent) (hall : ∀ t ∈ raw.items, Early t) : Opens raw none

theorem early_or_first (items : List (Timed RawItem)) :
    (∀ t ∈ items, Early t) ∨
      ∃ front t back, items = front ++ t :: back ∧ (∀ u ∈ front, Early u) ∧ ¬Early t := by
  induction items with
  | nil => exact .inl (List.forall_mem_nil _)
  | cons t rest ih =>
    by_cases ht : Early t
    · rcases ih with hall | ⟨front, u, back, hrest, hfront, hu⟩
      · exact .inl (List.forall_mem_cons.mpr ⟨ht, hall⟩)
      · exact .inr ⟨t :: front, u, back, by rw [hrest]; rfl, List.forall_mem_cons.mpr ⟨ht, hfront⟩, hu⟩
    · exact .inr ⟨[], t, rest, rfl, List.forall_mem_nil _, ht⟩

theorem not_early {t : Timed RawItem} (h : ¬Early t) :
    (∃ d reason, t = ⟨d, .error reason⟩) ∨ ∃ d, t = ⟨d, .ok .initDone⟩ := by
  obtain ⟨d, reason | event⟩ := t
  · exact .inl ⟨d, reason, rfl⟩
  · by_cases hevent : event = .initDone
    · exact .inr ⟨d, by rw [hevent]⟩
    · exact absurd ⟨event, rfl, hevent⟩ h

/-- Opening passes over early items, which it keeps. -/
theorem openFrom?_early {front : List (Timed RawItem)} (hfront : ∀ t ∈ front, Early t) (elapsed : Duration)
    (read : List PodItem) (ending : Ending) (back : List (Timed WatcherItem)) :
    openFrom? elapsed read ending (front.map (Timed.map told) ++ back) =
      openFrom? (elapsed + span (front.map (Timed.map translate)))
        ((front.map fun t ↦ translate t.item).reverse ++ read) ending back := by
  induction front generalizing elapsed read with
  | nil => rfl
  | cons t rest ih =>
    obtain ⟨ht, hrest⟩ := List.forall_mem_cons.mp hfront
    obtain ⟨d, item⟩ := t
    obtain ⟨event, rfl, hevent⟩ := ht
    have hsum : elapsed + d + span (rest.map (Timed.map translate)) =
        elapsed + (d + span (rest.map (Timed.map translate))) := congrArg Duration.mk (Nat.add_assoc _ _ _)
    simp only [List.map_cons, List.cons_append, openFrom?, Timed.map, told, hevent, if_false]
    rw [ih hrest, hsum, List.reverse_cons, List.append_assoc]
    rfl

theorem atOnce_append (front back : List (Timed RawItem)) :
    atOnce front.length ((front ++ back).map (Timed.map translate)) =
      (front.map fun t ↦ translate t.item).map (⟨.zero, ·⟩) ++ back.map (Timed.map translate) := by
  have hlength : (front.map (Timed.map translate)).length = front.length := List.length_map _
  have hitem : (front.map (Timed.map translate)).map Timed.item = front.map fun t ↦ translate t.item := List.map_map
  rw [atOnce, List.map_append, ← hlength, List.take_left, List.drop_left, hitem]

theorem span_take_append (front back : List (Timed RawItem)) :
    span (((front ++ back).map (Timed.map translate)).take front.length) = span (front.map (Timed.map translate)) := by
  have hlength : (front.map (Timed.map translate)).length = front.length := List.length_map _
  rw [List.map_append, ← hlength, List.take_left]

theorem opens (raw : Script RawItem) : Opens raw (open? (raw.map told)) := by
  have hopen {front back : List (Timed RawItem)} (hitems : raw.items = front ++ back) (hfront : ∀ t ∈ front, Early t) :
      open? (raw.map told) = openFrom? (span (front.map (Timed.map translate)))
        (front.map fun t ↦ translate t.item).reverse raw.ending (back.map (Timed.map told)) := by
    have hearly := openFrom?_early hfront .zero [] raw.ending (back.map (Timed.map told))
    have hzero : Duration.zero + span (front.map (Timed.map translate)) = span (front.map (Timed.map translate)) :=
      congrArg Duration.mk (Nat.zero_add _)
    rw [hzero, List.append_nil, ← List.map_append, ← hitems] at hearly
    exact hearly
  rcases early_or_first raw.items with hall | ⟨front, t, back, hitems, hfront, ht⟩
  · have hcut := atOnce_append raw.items []
    have hspan := span_take_append raw.items []
    rw [List.append_nil] at hcut hspan
    rw [hopen (List.append_nil _).symm hall]
    cases hending : raw.ending with
    | silent => exact .endless hending hall
    | closed =>
      have hclosed := Opens.closed hending hall
      rw [Script.map, hcut, hspan] at hclosed
      simpa only [List.map_nil, List.append_nil, openFrom?, List.reverse_reverse, List.length_reverse, List.length_map]
        using hclosed
  · have hsplit : raw.items = (front ++ [t]) ++ back := by rw [hitems, List.append_assoc, List.singleton_append]
    have hcut := atOnce_append (front ++ [t]) back
    have hspan := span_take_append (front ++ [t]) back
    rw [← hsplit, List.length_append, List.length_singleton] at hcut hspan
    rw [List.map_append, span_append] at hspan
    rw [hopen hitems hfront]
    rcases not_early ht with ⟨d, reason, rfl⟩ | ⟨d, rfl⟩
    · have hfailed := Opens.failed hitems hfront
      rw [Script.map, hspan] at hfailed
      simp only [List.map_cons, openFrom?, Timed.map, told, failed, List.length_cons, List.length_reverse,
        List.length_map]
      exact hfailed
    · have hlisted := Opens.listed hitems hfront
      rw [Script.map, hspan, hcut] at hlisted
      simp only [List.map_cons, openFrom?, Timed.map, told, if_true, List.length_cons, List.length_reverse,
        List.length_map, List.reverse_cons, List.reverse_reverse, List.map_append, List.map_map] at hlisted ⊢
      exact hlisted

section Waits

variable {limit : Duration} {ending : Ending}

/-- A wait that begins some time after another one comes to the same, on the same item. What came before its beginning
counts at once. -/
structure Resumes (start : Duration) (later whole : Waited) : Prop where
  outcome : later.outcome = whole.outcome
  taken : later.taken = whole.taken
  elapsed : start.nanos + later.elapsed.nanos = max start.nanos whole.elapsed.nanos

theorem waitFrom_shift (start elapsed : Duration) (l : Listing) (n : Nat) (items : List (Timed PodItem)) :
    Resumes start (waitFrom limit elapsed l n ending items)
      (waitFrom (start + limit) (start + elapsed) l n ending items) := by
  have hsame (d : Duration) (outcome : Outcome) (n : Nat) : Resumes start ⟨outcome, d, n⟩ ⟨outcome, start + d, n⟩ :=
    ⟨rfl, rfl, (Nat.max_eq_right (Nat.le_add_right _ _)).symm⟩
  induction items generalizing elapsed l n with
  | nil =>
    cases ending with
    | closed => exact hsame elapsed .closed n
    | silent => exact hsame limit .timedOut n
  | cons t rest ih =>
    have hsum : start + elapsed + t.delay = start + (elapsed + t.delay) := congrArg Duration.mk (Nat.add_assoc _ _ _)
    have hlate : start + limit < start + (elapsed + t.delay) ↔ limit < elapsed + t.delay := Nat.add_lt_add_iff_left
    simp only [waitFrom, hsum, hlate]
    by_cases h : limit < elapsed + t.delay
    · simp only [if_pos h]
      exact hsame limit .timedOut n
    · simp only [if_neg h]
      cases l.step? t.item with
      | none => exact hsame (elapsed + t.delay) .confirmed (n + 1)
      | some next => exact ih (elapsed + t.delay) next (n + 1)

/-- Items that came before the beginning of a wait may as well come when it begins. -/
theorem waitFrom_atOnce (front back : List (Timed PodItem)) {start elapsed : Duration}
    (hstart : elapsed + span front = start) (l : Listing) (n : Nat) :
    Resumes start (waitFrom limit .zero l n ending ((front.map Timed.item).map (⟨.zero, ·⟩) ++ back))
      (waitFrom (start + limit) elapsed l n ending (front ++ back)) := by
  induction front generalizing elapsed l n with
  | nil =>
    have hbegin : start + .zero = elapsed := hstart.symm
    have hshift := @waitFrom_shift limit ending start .zero l n back
    rw [hbegin] at hshift
    exact hshift
  | cons t rest ih =>
    have hsum : elapsed + t.delay + span rest = start := by
      rw [← hstart]
      exact congrArg Duration.mk (Nat.add_assoc _ _ _)
    have hbefore : elapsed + t.delay ≤ start := hsum ▸ Nat.le_add_right _ _
    have hintime : ¬start + limit < elapsed + t.delay :=
      Nat.not_lt_of_le (Nat.le_trans hbefore (Nat.le_add_right _ _))
    have hnow : ¬limit < Duration.zero + .zero := Nat.not_lt_zero limit.nanos
    simp only [List.map_cons, List.cons_append, waitFrom, if_neg hintime, if_neg hnow]
    cases l.step? t.item with
    | none => exact ⟨rfl, rfl, (Nat.max_eq_left hbefore).symm⟩
    | some next => exact ih hsum next (n + 1)

theorem wait_atOnce (limit : Duration) (script : Script PodItem) (n : Nat) :
    Resumes (span (script.items.take n)) (wait limit ⟨atOnce n script.items, script.ending⟩)
      (wait (span (script.items.take n) + limit) script) := by
  have hzero : Duration.zero + span (script.items.take n) = span (script.items.take n) :=
    congrArg Duration.mk (Nat.zero_add _)
  have h := @waitFrom_atOnce limit script.ending (script.items.take n) (script.items.drop n) _ _ hzero .none 0
  rw [List.take_append_drop] at h
  exact h

end Waits

theorem atOnce_item (n : Nat) (items : List (Timed PodItem)) :
    (atOnce n items).map Timed.item = items.map Timed.item := by
  have h : ((items.take n).map Timed.item).map (fun item ↦ (⟨.zero, item⟩ : Timed PodItem).item) =
      (items.take n).map Timed.item := List.map_id' _
  rw [atOnce, List.map_append, List.map_map]
  exact (congrArg (· ++ (items.drop n).map Timed.item) h).trans (by rw [← List.map_append, List.take_append_drop])

theorem first_unique {front front' back back' : List (Timed RawItem)} {t t' : Timed RawItem}
    (h : front ++ t :: back = front' ++ t' :: back') (hfront : ∀ u ∈ front, Early u) (hfront' : ∀ u ∈ front', Early u)
    (ht : ¬Early t) (ht' : ¬Early t') : front = front' ∧ t = t' := by
  induction front generalizing front' with
  | nil =>
    cases front' with
    | nil => exact ⟨rfl, (List.cons.inj h).1⟩
    | cons u rest =>
      obtain ⟨rfl, -⟩ := List.cons.inj h
      exact absurd (hfront' t List.mem_cons_self) ht
  | cons u rest ih =>
    obtain ⟨hu, hrest⟩ := List.forall_mem_cons.mp hfront
    cases front' with
    | nil =>
      obtain ⟨rfl, -⟩ := List.cons.inj h
      exact absurd hu ht'
    | cons u' rest' =>
      obtain ⟨rfl, hlater⟩ := List.cons.inj h
      obtain ⟨rfl, heq⟩ := ih hlater hrest (List.forall_mem_cons.mp hfront').2
      exact ⟨rfl, heq⟩

theorem not_early_error (d : Duration) (reason : String) : ¬Early ⟨d, .error reason⟩ := by
  rintro ⟨event, h, -⟩
  cases h

theorem not_early_done (d : Duration) : ¬Early ⟨d, .ok .initDone⟩ := by
  rintro ⟨event, h, hevent⟩
  cases h
  exact hevent rfl

namespace Opens

variable {raw : Script RawItem} {result : Option Opening}

theorem failed_iff (h : Opens raw result) (e : Error) :
    (∃ opening, result = some opening ∧ opening.result = .error e) ↔
      ∃ front d reason back, raw.items = front ++ ⟨d, .error reason⟩ :: back ∧ (∀ t ∈ front, Early t) ∧
        e = .clusterApi "watch pods" reason := by
  refine ⟨?_, ?_⟩
  · rintro ⟨opening, rfl, he⟩
    cases h with
    | failed hitems hfront =>
      cases he
      exact ⟨_, _, _, _, hitems, hfront, rfl⟩
    | listed | closed => cases he
  · rintro ⟨front, d, reason, back, hitems, hfront, rfl⟩
    cases h with
    | failed hown hearly =>
      obtain ⟨-, ht⟩ := first_unique (hitems.symm.trans hown) hfront hearly (not_early_error _ _) (not_early_error _ _)
      cases ht
      exact ⟨_, rfl, rfl⟩
    | listed hown hearly =>
      obtain ⟨-, ht⟩ := first_unique (hitems.symm.trans hown) hfront hearly (not_early_error _ _) (not_early_done _)
      cases ht
    | closed he hall | endless he hall => exact absurd (hall ⟨d, .error reason⟩ (by simp [hitems])) (not_early_error _ _)

theorem none_iff (h : Opens raw result) : result = none ↔ raw.ending = .silent ∧ ∀ t ∈ raw.items, Early t := by
  cases h with
  | @failed front back d reason hitems hfront =>
    refine ⟨nofun, fun hsilent ↦ ?_⟩
    exact absurd (hsilent.2 ⟨d, .error reason⟩ (by simp [hitems])) (not_early_error _ _)
  | @listed front back d hitems hfront =>
    refine ⟨nofun, fun hsilent ↦ ?_⟩
    exact absurd (hsilent.2 ⟨d, .ok .initDone⟩ (by simp [hitems])) (not_early_done _)
  | closed he hall =>
    refine ⟨nofun, fun hsilent ↦ ?_⟩
    cases he.symm.trans hsilent.1
  | endless he hall => exact ⟨fun _ ↦ ⟨he, hall⟩, fun _ ↦ rfl⟩

theorem stream_eq (h : Opens raw result) {opening : Opening} {stream : Script PodItem} (hopening : result = some opening)
    (hstream : opening.result = .ok stream) :
    stream = ⟨atOnce opening.taken (raw.map translate).items, raw.ending⟩ ∧
      opening.elapsed = span ((raw.map translate).items.take opening.taken) := by
  subst hopening
  cases h with
  | failed => cases hstream
  | listed =>
    cases hstream
    exact ⟨rfl, rfl⟩
  | closed he =>
    cases hstream
    rw [he]
    exact ⟨rfl, rfl⟩

end Opens

theorem exists_told {items : List (Timed WatcherItem)} (h : ∀ t ∈ items, IsTold t.item) :
    ∃ raw : List (Timed RawItem), items = raw.map (Timed.map told) := by
  induction items with
  | nil => exact ⟨[], rfl⟩
  | cons t rest ih =>
    obtain ⟨⟨item, hitem⟩, hrest⟩ := List.forall_mem_cons.mp h
    obtain ⟨raw, hraw⟩ := ih hrest
    refine ⟨⟨t.delay, item⟩ :: raw, ?_⟩
    rw [hraw, List.map_cons, Timed.map, hitem]

end Watch

end SelfHealing
