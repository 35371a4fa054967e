import Mathlib.Data.List.Forall2
import SelfHealing.Proofs.Command.Calls
import SelfHealing.Proofs.Registry.Entry

/-!
Commands on one host, one after the other. Main statement: the commands that are not empty are run in their order and
for the same target, up to and with the first that does not succeed, whose failure is the result.
-/

namespace SelfHealing

open Net Observation

namespace Command

def Given (s : Setup) (host : Address) (t : Target) (command : String) (run : CommandRun) : Prop :=
  Handed s host command run ∧ run.target = t

def Succeeded (run : CommandRun) : Prop := ∃ text, run.answer = some (.ok ⟨0, text⟩)

def AllSucceed (s : Setup) (host : Address) (t : Target) (commands : List String) (runs : List CommandRun) : Prop :=
  List.Forall₂ (fun command run ↦ Given s host t command run ∧ Succeeded run) commands runs

theorem succeeded_iff {run : CommandRun} : Succeeded run ↔ ∃ text, run.verdict = some (.ok text) := by
  simp only [Succeeded, verdict_eq_ok]

theorem settled_ne_ok {run : CommandRun} (h : ¬Succeeded run) : settled run.verdict ≠ some (.ok ()) := by
  rw [succeeded_iff] at h
  rcases hverdict : run.verdict with _ | e | text
  · simp [settled]
  · simp [settled, Except.map]
  · exact absurd ⟨text, hverdict⟩ h

theorem Handed.given {s : Setup} {host : Address} {t : Target} (ht : s.registry.target host = .ok t)
    {command : String} {run : CommandRun} (h : Handed s host command run) : Given s host t command run := by
  obtain ⟨entry, -, he, -, htarget⟩ := h.target
  refine ⟨h, ?_⟩
  rw [htarget]
  exact Except.ok.inj ((Registry.target_of_entry he).symm.trans ht)

theorem RunsInTurn.outcome {s : Setup} {host : Address} {t : Target} (ht : s.registry.target host = .ok t)
    {commands : List String} {runs : List CommandRun} {result : Option (Except Error Unit)}
    (h : RunsInTurn s host commands runs result) :
    (AllSucceed s host t (commands.filter (· ≠ "")) runs ∧ result = some (.ok ())) ∨
      ∃ front command back done last, commands.filter (· ≠ "") = front ++ command :: back ∧
        AllSucceed s host t front done ∧ Given s host t command last ∧ ¬Succeeded last ∧
        runs = done ++ [last] ∧ result = settled last.verdict := by
  induction h with
  | done => exact .inl ⟨.nil, rfl⟩
  | skipped hrest ih => simpa using ih
  | @stopped command rest run hc hrun hv =>
    have hlast : ¬Succeeded run := fun h ↦ by
      obtain ⟨text, htext⟩ := succeeded_iff.mp h
      exact hv text htext
    rw [List.filter_cons_of_pos (by simpa using hc)]
    exact .inr ⟨[], command, rest.filter (· ≠ ""), [], run, rfl, .nil, hrun.given ht, hlast, rfl, rfl⟩
  | @passed command rest run text runs result hc hrun hv hrest ih =>
    have hpassed : Given s host t command run ∧ Succeeded run :=
      ⟨hrun.given ht, succeeded_iff.mpr ⟨text, hv⟩⟩
    rw [List.filter_cons_of_pos (by simpa using hc)]
    -- The command goes in front of what the rest has run, also where the rest ends in a failure.
    rcases ih with ⟨hall, hresult⟩ | ⟨front, failed, back, done, last, hsplit, hfront, hlast⟩
    · exact .inl ⟨.cons hpassed hall, hresult⟩
    · obtain ⟨hgiven, hbad, rfl, hresult⟩ := hlast
      refine .inr ⟨command :: front, failed, back, run :: done, last, ?_, .cons hpassed hfront, hgiven, hbad, rfl,
        hresult⟩
      rw [hsplit, List.cons_append]

variable {W : Type}

/-- On a host that no entry lists nothing is run, whatever the commands. On any other, the commands that are not empty
are run in their order and for its one target: all of them, and all succeed, or those up to and with the first that does
not, whose failure is the result. -/
theorem executeAll_in_turn (o : Outside W) (s : Setup) (host : Address) (commands : List String) (w : W) :
    ((∀ entry ∈ s.registry.hosts, host ∉ entry.addresses) →
      perform ((o.executor s).executeAll host commands) w = ⟨some (.error (.hostNotRegistered host)), w, []⟩) ∧
    ∀ entry ∈ s.registry.hosts, host ∈ entry.addresses →
      ∃ t, s.registry.target host = .ok t ∧
        ((∃ runs, AllSucceed s host t (commands.filter (· ≠ "")) runs ∧
            (perform ((o.executor s).executeAll host commands) w).events = runs.map .ran ∧
            (perform ((o.executor s).executeAll host commands) w).result = some (.ok ())) ∨
          ∃ front command back runs last, commands.filter (· ≠ "") = front ++ command :: back ∧
            AllSucceed s host t front runs ∧ Given s host t command last ∧ ¬Succeeded last ∧
            (perform ((o.executor s).executeAll host commands) w).events = (runs ++ [last]).map .ran ∧
            (perform ((o.executor s).executeAll host commands) w).result = settled last.verdict ∧
            (perform ((o.executor s).executeAll host commands) w).result ≠ some (.ok ())) := by
  refine ⟨fun hnone ↦ ?_, fun listing hmem hlists ↦ ?_⟩
  · rw [Recovery.executeAll_course, Registry.target_of_none (Registry.entry?_eq_none hnone)]
  · obtain ⟨entry, he⟩ := Registry.entry?_of_listed hmem hlists
    have ht := Registry.target_of_entry he
    obtain ⟨v, runs, result, hruns, hcourse⟩ := runEach_runsInTurn o s he commands w
    rw [Recovery.executeAll_course, ht]
    simp only [hcourse]
    refine ⟨_, rfl, ?_⟩
    rcases hruns.outcome ht with ⟨hall, hresult⟩ | ⟨front, command, back, done, last, hsplit, hfront, hlast⟩
    · exact .inl ⟨runs, hall, rfl, hresult⟩
    · obtain ⟨hgiven, hbad, rfl, rfl⟩ := hlast
      exact .inr ⟨front, command, back, done, last, hsplit, hfront, hgiven, hbad, rfl, rfl, settled_ne_ok hbad⟩

def exitingOn (failing : String) : Outside Unit :=
  { Outside.agreeing [] with
    command := fun _ _ text _ _ w ↦ (([], some (.ok ⟨if text = failing then 7 else 0, ""⟩)), w) }

/-- An empty command is passed over, the third fails, and the fourth is not run; on a host that no entry lists, even an
empty command fails. -/
theorem executeAll_in_turn_failing :
    perform (((exitingOn "exit 7").executor (.oneHost (.v4 ⟨10, 0, 0, 9⟩) "root")).executeAll
        (.v4 ⟨10, 0, 0, 8⟩) [""]) () = ⟨some (.error (.hostNotRegistered (.v4 ⟨10, 0, 0, 8⟩))), (), []⟩ ∧
      ∃ first last : CommandRun,
        perform (((exitingOn "exit 7").executor (.oneHost (.v4 ⟨10, 0, 0, 9⟩) "root")).executeAll
            (.v4 ⟨10, 0, 0, 9⟩) ["true", "", "exit 7", "reboot"]) () =
          ⟨some (.error (.commandFailed (.v4 ⟨10, 0, 0, 9⟩) "exit 7" 7 "")), (), [.ran first, .ran last]⟩ ∧
        first.text = "true" ∧ last.text = "exit 7" ∧ first.target = last.target ∧ Succeeded first ∧
        ¬Succeeded last := by
  let o := exitingOn "exit 7"
  let s := Setup.oneHost (.v4 ⟨10, 0, 0, 9⟩) "root"
  let t : Target := ⟨.v4 ⟨10, 0, 0, 9⟩, s.registry.resolve ⟨[.v4 ⟨10, 0, 0, 9⟩], [], .empty, []⟩, []⟩
  have hcourse : perform ((o.executor s).executeAll (.v4 ⟨10, 0, 0, 9⟩) ["true", "", "exit 7", "reboot"]) () =
      ⟨some (.error (.commandFailed (.v4 ⟨10, 0, 0, 9⟩) "exit 7" 7 "")), (),
        [.ran (o.handed s t "true" ()), .ran (o.handed s t "exit 7" ())]⟩ := rfl
  have hunlisted : ∀ entry ∈ s.registry.hosts, Address.v4 ⟨10, 0, 0, 8⟩ ∉ entry.addresses := by decide
  obtain ⟨t', -, ⟨runs, -, -, hresult⟩ | ⟨front, command, back, runs, last, -, hfront, hgiven, hbad, hevents, -⟩⟩ :=
    (executeAll_in_turn o s (.v4 ⟨10, 0, 0, 9⟩) ["true", "", "exit 7", "reboot"] ()).2 _ List.mem_cons_self
      List.mem_cons_self
  · rw [hcourse] at hresult
    cases hresult
  · rw [hcourse] at hevents
    have hruns : [o.handed s t "true" ()] ++ [o.handed s t "exit 7" ()] = runs ++ [last] :=
      List.map_injective_iff.mpr (fun _ _ h ↦ Event.ran.inj h) hevents
    obtain ⟨rfl, hlast⟩ := List.append_inj' hruns rfl
    obtain rfl := List.singleton_inj.mp hlast
    cases hfront with
    | cons hfirst _ =>
      exact ⟨(executeAll_in_turn o s (.v4 ⟨10, 0, 0, 8⟩) [""] ()).1 hunlisted, _, _, hcourse, rfl, rfl,
        hfirst.1.2.trans hgiven.2.symm, hfirst.2, hbad⟩

end Command

end SelfHealing
