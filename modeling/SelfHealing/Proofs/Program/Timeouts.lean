import SelfHealing.Program
import SelfHealing.Proofs.Recovery.Abort
import SelfHealing.Proofs.Recovery.Order
import SelfHealing.Proofs.Ssh.Patience

/-!
The timeouts of the command line, which may be any count of seconds. Main statement: a run bears them all, but for one
case. When a pod has been deleted, and the seconds of the clock with those of the wait are more than a signed count of
64 bits holds, the run is aborted.
-/

namespace SelfHealing.Program

open Command CommandLine Machine Net Observation Recovery Time

section Reading

variable {environment : List (String × String)} {args : List String} {i : Invocation}

theorem count?_le {s : String} {n : Nat} (h : count? s = some n) : n ≤ maxCount := by
  unfold count? Text.unsigned? at h
  obtain ⟨m, -, h⟩ := Option.bind_eq_some_iff.mp h
  obtain ⟨hle, hm⟩ := Option.ite_none_right_eq_some.mp h
  exact Option.some_inj.mp hm ▸ hle

structure Counted (s : Settings) : Prop where
  command : s.commandTimeout ≤ maxCount
  connect : s.connectTimeout ≤ maxCount
  watch : s.watchTimeout ≤ maxCount

theorem settings?_counted {g : Given} {s : Settings} (h : g.settings? = some s) : Counted s := by
  have hle {name : String} {n : Nat} (h : g.counted? name = some n) : n ≤ maxCount := by
    obtain ⟨text, -, hcount⟩ := Option.bind_eq_some_iff.mp h
    exact count?_le hcount
  unfold Given.settings? at h
  obtain ⟨command, hcommand, h⟩ := Option.bind_eq_some_iff.mp h
  obtain ⟨connect, hconnect, h⟩ := Option.bind_eq_some_iff.mp h
  obtain ⟨watch, hwatch, h⟩ := Option.bind_eq_some_iff.mp h
  cases h
  exact ⟨hle hcommand, hle hconnect, hle hwatch⟩

theorem reading_ne_invocation (stop : Stop) (topic : Topic) : stop.reading topic ≠ .invocation i := by
  cases stop <;> exact nofun

theorem readVerb_counted {globals : Given} {verb : CommandLine.Verb}
    (h : readVerb environment globals verb args = .invocation i) : Counted i.settings := by
  unfold readVerb at h
  extract_lets own at h
  generalize complete globalForm environment globals = completed at h
  rcases own with stop | own
  · exact absurd h (reading_ne_invocation stop _)
  rcases completed with stop | globals
  · exact absurd h (reading_ne_invocation stop _)
  simp only at h
  split at h
  · rename_i settings job hsettings _
    cases h
    exact settings?_counted hsettings
  · cases h

theorem readHelp_ne_invocation (topics : List String) : readHelp topics ≠ .invocation i := by
  unfold readHelp
  split
  · exact nofun
  · split
    · exact nofun
    · split <;> exact nofun
  · exact nofun

theorem read_counted (h : CommandLine.read environment args = .invocation i) : Counted i.settings := by
  unfold CommandLine.read at h
  split at h
  · exact absurd h (reading_ne_invocation _ _)
  · cases h
  · split at h
    · exact readVerb_counted h
    · exact absurd h (readHelp_ne_invocation _)

end Reading

variable {W : Type}

/-- A machine with its files, whose cluster, shell and sessions are an outside. -/
def machine (o : Outside W) (environment : List (String × String)) (file? : String → Option String)
    (interfaces? : Option (List InterfaceEntry)) : Machine (Observed W) where
  environment := environment
  file? := file?
  interfaces? := interfaces?
  transports _ :=
    { runHere := o.runner .here
      runThere := o.runner .there
      pingThere := fun t ↦ .ask (.pinged t) (o.ping t) }
  cluster _ := o.cluster
  clock := o.clock

def unread (o : Outside W) : Outside W := { o with display := fun _ _ ↦ id }

section Work

variable {α β : Type} {f : α → Work (Observed W) β} {w : W}

theorem aborts_given_iff (r : Except Failure α) :
    Aborts (ExceptT.run (Work.ofExcept r >>= f)) w ↔ ∃ a, r = .ok a ∧ Aborts (ExceptT.run (f a)) w := by
  refine aborts_andThen_iff.trans ?_
  cases r with
  | error e =>
    refine iff_of_false ?_ (by simp)
    rintro (h | ⟨a, v, events, h, -⟩)
    · exact not_aborts_pure _ w h
    · cases h
  | ok a =>
    constructor
    · rintro (h | ⟨a, v, events, h, hf⟩)
      · exact absurd h (not_aborts_pure _ w)
      · cases h
        exact ⟨a, rfl, hf⟩
    · rintro ⟨_, ⟨⟩, hf⟩
      exact .inr ⟨a, w, [], rfl, hf⟩

theorem mapError_eq_ok_iff {r : Except Error α} {explain : Error → Failure} {a : α} :
    r.mapError explain = .ok a ↔ r = .ok a := by
  cases r <;> simp [Except.mapError]

theorem ofExcept_neverAborts (r : Except Failure α) : NeverAborts (Work.ofExcept r : Work (Observed W) α) := by
  cases r with
  | ok a => exact .pure a
  | error e => exact .throw e

end Work

variable (o : Outside W) (environment : List (String × String)) (file? : String → Option String)
  (interfaces? : Option (List InterfaceEntry))

inductive Overlasts (i : Invocation) (w : W) : Prop
  | intro {configuration results : String} {c : Configuration} {matched : List RuleResult} {access : Kubernetes.Access}
      (hjob : i.job = .run configuration results)
      (hconfiguration : (machine o environment file? interfaces?).configuration configuration = .ok c)
      (hresults : (machine o environment file? interfaces?).results c.rules results = .ok matched)
      (haccess : (machine o environment file? interfaces?).access i.settings.kubeconfig = .ok access)
      (hpass : Overruns (unread o) ⟨c.registry, (machine o environment file? interfaces?).own,
        options i.settings i.settings.streams, .ofSeconds i.settings.watchTimeout⟩ matched w) : Overlasts i w

theorem recover_aborts_iff (s : Settings) (configuration results : String) (w : W) :
    Aborts (ExceptT.run ((machine o environment file? interfaces?).recover s configuration results)) w ↔
      Overlasts o environment file? interfaces? ⟨s, .run configuration results⟩ w := by
  have hpass (c : Configuration) (matched : List RuleResult) (access : Kubernetes.Access) :
      Aborts (ExceptT.run (do
        attempt .recovery (Recovery.run (m := Observed W)
          { cluster := (machine o environment file? interfaces?).cluster access
            executor := (machine o environment file? interfaces?).executor c.registry (options s s.streams)
            clock := (machine o environment file? interfaces?).clock
            watchTimeout := .ofSeconds s.watchTimeout } matched)
        return "" : Work (Observed W) String)) w ↔
      Overruns (unread o) ⟨c.registry, (machine o environment file? interfaces?).own, options s s.streams,
        .ofSeconds s.watchTimeout⟩ matched w := by
    refine (NeverAborts.aborts_first_iff (fun _ ↦ .pure "") w).trans ((aborts_adapt_iff _).trans ?_)
    exact run_aborts_iff (unread o)
      ⟨c.registry, (machine o environment file? interfaces?).own, options s s.streams, .ofSeconds s.watchTimeout⟩
      matched w
  refine (aborts_given_iff _).trans ⟨?_, ?_⟩
  · rintro ⟨c, hconfiguration, h⟩
    obtain ⟨matched, hresults, h⟩ := (aborts_given_iff _).mp h
    obtain ⟨access, haccess, h⟩ := (aborts_given_iff _).mp h
    exact .intro rfl hconfiguration hresults (mapError_eq_ok_iff.mp haccess) ((hpass c matched access).mp h)
  · rintro @⟨_, _, c, matched, access, ⟨⟩, hconfiguration, hresults, haccess, h⟩
    exact ⟨c, hconfiguration, (aborts_given_iff _).mpr ⟨matched, hresults,
      (aborts_given_iff _).mpr ⟨access, mapError_eq_ok_iff.mpr haccess, (hpass c matched access).mpr h⟩⟩⟩

theorem exec_neverAborts (mc : Machine (Observed W)) (s : Settings) (configuration : String) (host : Address)
    (words : List String) : NeverAborts (mc.exec s configuration host words) := by
  refine .bind (ofExcept_neverAborts _) fun c w h ↦ ?_
  exact (mc.executor c.registry (options s false)).execute_neverAborts host _ w ((aborts_adapt_iff _).mp h)

theorem pingEach_not_aborts (e : Executor (Observed W)) (hosts : List Address) (w : W) :
    ¬Aborts (pingEach e hosts) w := by
  induction hosts generalizing w with
  | nil => exact not_aborts_pure _ w
  | cons host rest ih =>
    have hcons : pingEach e (host :: rest) = (do
        let result ← ExceptT.run (e.ping host)
        let results ← pingEach e rest
        pure ((host, result) :: results)) := by
      simp only [pingEach, List.mapM_cons, bind_assoc, pure_bind]
      rfl
    rw [hcons, aborts_bind_iff]
    rintro (h | ⟨result, v, events, -, h⟩)
    · exact e.ping_neverAborts host w h
    · rcases (aborts_bind_iff _ _ v).mp h with h | ⟨results, u, es, -, h⟩
      · exact ih v h
      · exact not_aborts_pure _ u h

theorem ping_not_aborts (mc : Machine (Observed W)) (s : Settings) (configuration : String) (host : Option Address)
    (w : W) : ¬Aborts (mc.ping s configuration host) w := by
  unfold Machine.ping
  cases mc.configuration configuration with
  | error f => exact not_aborts_pure _ w
  | ok c =>
    intro h
    rcases (aborts_bind_iff _ _ w).mp h with h | ⟨results, v, events, -, h⟩
    · exact pingEach_not_aborts _ _ w h
    · exact not_aborts_pure _ v h

theorem carryOut_aborts_iff (i : Invocation) (w : W) :
    Aborts ((machine o environment file? interfaces?).carryOut i) w ↔
      Overlasts o environment file? interfaces? i w := by
  have hreport {x : OptionT (Observed W) (Except Failure String)} :
      Aborts (do return Report.ofExcept (← x)) w ↔ Aborts x w := aborts_bind_pure_iff x Report.ofExcept w
  obtain ⟨s, job⟩ := i
  cases job with
  | run configuration results =>
    exact hreport.trans (recover_aborts_iff o environment file? interfaces? s configuration results w)
  | ping configuration host =>
    refine iff_of_false (ping_not_aborts _ s configuration host w) ?_
    rintro ⟨⟨⟩, -⟩
  | exec configuration host words =>
    refine iff_of_false (fun h ↦ exec_neverAborts _ s configuration host words w (hreport.mp h)) ?_
    rintro ⟨⟨⟩, -⟩

/-- A run of the program is aborted if and only if it repairs, and its pass comes to an overlong wait. -/
theorem runs_aborts_iff (args : List String) (w : W) :
    Aborts ((machine o environment file? interfaces?).run args) w ↔
      ∃ i, CommandLine.read environment args = .invocation i ∧ Overlasts o environment file? interfaces? i w := by
  rw [Machine.run, show (machine o environment file? interfaces?).environment = environment from rfl]
  cases CommandLine.read environment args with
  | usage => exact iff_of_false (not_aborts_pure _ w) (by simp)
  | help topic => exact iff_of_false (not_aborts_pure _ w) (by simp)
  | invocation i =>
    have hreport := aborts_bind_pure_iff ((machine o environment file? interfaces?).carryOut i) Outcome.report w
    refine (hreport.trans (carryOut_aborts_iff o environment file? interfaces? i w)).trans ⟨fun h ↦ ⟨i, rfl, h⟩, ?_⟩
    rintro ⟨_, ⟨⟩, h⟩
    exact h

/-- The moment after some seconds lies beyond the clock when they and those of the clock need more than 63 bits. -/
theorem add?_ofSeconds_eq_none_iff (start : Instant) (seconds : Nat) :
    start.add? (.ofSeconds seconds) = none ↔ 0x8000000000000000 ≤ start.nanos / 1000000000 + seconds := by
  have hseconds : (start.nanos + seconds * 1000000000) / 1000000000 = start.nanos / 1000000000 + seconds :=
    Nat.add_mul_div_right _ _ (by decide)
  simp only [Instant.add?, Instant.representable, Duration.ofSeconds, hseconds, ite_eq_right_iff, reduceCtorEq,
    imp_false, decide_eq_true_eq, Nat.not_lt]

theorem nextTimeout?_options (s : Settings) (streams : Bool) (started now : Instant) :
    Ssh.Deadline.nextTimeout? ⟨(options s streams).commandTimeout, started⟩ now =
      if s.commandTimeout = 0 then some none
      else if (now.since started).nanos + 1000000 ≤ s.commandTimeout * 1000000000 then
        some (some (.ofMillis (min ((s.commandTimeout * 1000000000 - (now.since started).nanos) / 1000000) 0xFFFFFFFF)))
      else none := by
  rcases Nat.eq_zero_or_pos s.commandTimeout with hzero | hpos
  · rw [if_pos hzero]
    simp only [options, hzero, Nat.lt_irrefl, if_false]
    rfl
  · have hlimit : (options s streams).commandTimeout = some (.ofSeconds s.commandTimeout) := if_pos hpos
    rw [if_neg (Nat.ne_of_gt hpos), Ssh.nextTimeout?_limited hlimit]
    rfl

/-- How the timeouts of an invocation are borne. -/
structure Borne (environment : List (String × String)) (args : List String) (i : Invocation) : Prop where
  counted : Counted i.settings
  /-- What is left of the time for a command is exact, to the millisecond and up to 32 bits of them. -/
  left : ∀ streams (started now : Instant),
    Ssh.Deadline.nextTimeout? ⟨(options i.settings streams).commandTimeout, started⟩ now =
      if i.settings.commandTimeout = 0 then some none
      else if (now.since started).nanos + 1000000 ≤ i.settings.commandTimeout * 1000000000 then
        some (some (.ofMillis
          (min ((i.settings.commandTimeout * 1000000000 - (now.since started).nanos) / 1000000) 0xFFFFFFFF)))
      else none
  sessions : ∀ streams p t command, let o := options i.settings streams
    ∀ e ∈ ((Ssh.run p o.connectTimeout t command o.commandTimeout).hold .start).2.exchanges,
      e.Allotted o.connectTimeout o.commandTimeout
  /-- To try whether a host can be reached, no request may take any time that it wants. -/
  pings : ∀ streams p t limit, let o := options i.settings streams
    ∀ e ∈ ((Ssh.ping p o.connectTimeout t).hold .start).2.exchanges, e.Allotted o.connectTimeout limit
  /-- Nothing aborts a run but the wait for a pod that has been deleted. -/
  run : ∀ {W : Type} (o : Outside W) (file? : String → Option String) (interfaces? : Option (List InterfaceEntry))
    (w : W),
    Aborts ((machine o environment file? interfaces?).run args) w ↔ Overlasts o environment file? interfaces? i w
  wait : ∀ start : Instant, start.add? (.ofSeconds i.settings.watchTimeout) = none ↔
    0x8000000000000000 ≤ start.nanos / 1000000000 + i.settings.watchTimeout

/-- Every invocation bears its timeouts, but for a wait that ends when the clock has no seconds left. -/
theorem timeouts_borne {environment : List (String × String)} {args : List String} {i : Invocation}
    (h : CommandLine.read environment args = .invocation i) : Borne environment args i where
  counted := read_counted h
  left streams := nextTimeout?_options i.settings streams
  sessions streams p t command := Ssh.run_allotted p _ t command _
  pings streams p t limit := Ssh.ping_allotted p _ t limit
  run o file? interfaces? w := by
    rw [runs_aborts_iff, h]
    constructor
    · rintro ⟨_, ⟨⟩, hlasts⟩
      exact hlasts
    · exact fun hlasts ↦ ⟨i, rfl, hlasts⟩
  wait start := add?_ofSeconds_eq_none_iff start _

/-- All timeouts as long as they can be. -/
theorem timeouts_borne_longest :
    CommandLine.read [("REMEDY_CONNECT_TIMEOUT", "18446744073709551615")]
        ["--command-timeout", "18446744073709551615", "--watch-timeout=18446744073709551615", "ping", "--config", "c"] =
      .invocation ⟨⟨false, none, maxCount, maxCount, maxCount, true⟩, .ping "c" none⟩ ∧
    Borne [("REMEDY_CONNECT_TIMEOUT", "18446744073709551615")]
      ["--command-timeout", "18446744073709551615", "--watch-timeout=18446744073709551615", "ping", "--config", "c"]
      ⟨⟨false, none, maxCount, maxCount, maxCount, true⟩, .ping "c" none⟩ := by
  have hread : CommandLine.read [("REMEDY_CONNECT_TIMEOUT", "18446744073709551615")]
      ["--command-timeout", "18446744073709551615", "--watch-timeout=18446744073709551615", "ping", "--config", "c"] =
    .invocation ⟨⟨false, none, maxCount, maxCount, maxCount, true⟩, .ping "c" none⟩ := by decide +kernel
  exact ⟨hread, timeouts_borne hread⟩

def deletionFiles : List (String × String) :=
  [("k", "current-context: c\nclusters: [\x7bname: c, cluster: \x7bserver: 'http://h'\x7d\x7d]\n" ++
      "contexts: [\x7bname: c, context: \x7bcluster: c\x7d\x7d]"),
    ("c", "rules: [\x7bname: gone, recover: \x7btype: pod, action: delete, enable: true\x7d\x7d]"),
    ("r", "\x7b\"gone\": \x7b\"resultType\": \"vector\", \"result\": " ++
      "[\x7b\"metric\": \x7b\"namespace\": \"prod\", \"pod\": \"api-0\"\x7d, \"value\": [1, \"1\"]\x7d]\x7d\x7d")]

def deletionArguments (watchTimeout : String) : List String :=
  ["--kubeconfig", "k", "--watch-timeout", watchTimeout, "run", "--config", "c", "--results", "r"]

/-- A timeout that the command line takes, and under which no wait has an end: the pod is deleted and watched, and then
the run is aborted. -/
theorem timeouts_not_borne :
    CommandLine.read [] (deletionArguments "9223372036854775808") =
        .invocation ⟨⟨false, some "k", 600, 10, 9223372036854775808, true⟩, .run "c" "r"⟩ ∧
      (∀ (start : Instant) (script : Time.Script Watch.PodItem),
        Watch.waitFrom? start (.ofSeconds 9223372036854775808) script = none) ∧
      (((machine (.agreeing []) [] (fun path ↦ List.lookup path deletionFiles) none).run
        (deletionArguments "9223372036854775808")).run ()).result = some none ∧
      Task.run (Recovery.run ((Outside.agreeing []).context
          { Setup.oneHost default "root" with watchTimeout := .ofSeconds 9223372036854775808 })
        [.under ⟨.pod, "delete", true⟩ (sampleOf [("namespace", "prod"), ("pod", "api-0")])]) () =
          ⟨some none, (), [.deleted "prod" "api-0" (some (.ok ())),
            .watched "prod" "api-0" (some (.ok ⟨[], .closed⟩))]⟩ := by
  refine ⟨by decide +kernel, fun start script ↦ ?_, by decide +kernel, rfl⟩
  have hlate : start.add? (.ofSeconds 9223372036854775808) = none :=
    (add?_ofSeconds_eq_none_iff start _).mpr (Nat.le_add_left _ _)
  rw [Watch.waitFrom?, hlate]
  rfl

end SelfHealing.Program
