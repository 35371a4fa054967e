import SelfHealing.Command.Child
import SelfHealing.Proofs.Command.Calls
import SelfHealing.Proofs.Secrecy.Course
import SelfHealing.Proofs.Secrecy.Session

/-!
Secrets and what is seen from outside. Main statement: for two setups that differ in no more than the passwords and
passphrases that are set in both, and for outsides that answer alike, a recovery pass and all calls of an executor ask
for the same, show the same lines and come to the same results; so do the sessions that log in with these secrets.
-/

namespace SelfHealing

open Command Net Observation Recovery Time

namespace Command

section Executors

variable {W W' : Type} {R : W → W' → Prop} {o : Outside W} {o' : Outside W'} {s s' : Setup} {t t' : Target}

theorem route_resembles (o : Outside W) (o' : Outside W') (hs : s.Resembles s') (host : Address) :
    (o.executor s).route host = (o'.executor s').route host := by
  have hown : (o.executor s).own = (o'.executor s').own := hs.own
  simp only [Executor.route, hown]

theorem shown_related (ho : o.Resembles R o') (streamed : Bool) (host : Address) (lines : List String) {w : W} {w' : W'}
    (hw : R w w') : R (o.shown streamed host lines w) (o'.shown streamed host lines w') := by
  cases streamed with
  | false => exact hw
  | true =>
    simp only [Outside.shown, if_true]
    induction lines generalizing w w' with
    | nil => exact hw
    | cons line rest ih => exact ih (ho.display host line w w' hw)

theorem commandRun_resembles (ho : o.Resembles R o') (ht : t.Resembles t') (route : Route) (text : String)
    (limit : Option Duration) (streamed : Bool) {w : W} {w' : W'} (hw : R w w') :
    (o.commandRun route t text limit streamed w).Resembles (o'.commandRun route t' text limit streamed w') := by
  obtain ⟨hanswer, -⟩ := ho.command route t t' text limit streamed ht w w' hw
  exact ⟨rfl, ht, rfl, rfl, rfl, congrArg Prod.fst hanswer, congrArg Prod.snd hanswer⟩

theorem handed_resembles (ho : o.Resembles R o') (hs : s.Resembles s') (ht : t.Resembles t') (command : String)
    {w : W} {w' : W'} (hw : R w w') :
    (o.handed s t command w).Resembles (o'.handed s' t' command w') := by
  unfold Outside.handed
  rw [← ht.host, ← route_resembles o o' hs, ← ht.credential.prepare, ← hs.options]
  exact commandRun_resembles ho ht _ _ _ _ hw

theorem left_related (ho : o.Resembles R o') (hs : s.Resembles s') (ht : t.Resembles t') (command : String)
    {w : W} {w' : W'} (hw : R w w') : R (o.left s t command w) (o'.left s' t' command w') := by
  unfold Outside.left
  rw [← (handed_resembles ho hs ht command hw).lines, ← ht.host, ← route_resembles o o' hs,
    ← ht.credential.prepare, ← hs.options]
  exact shown_related ho _ _ _ (ho.command _ t t' _ _ _ ht w w' hw).2

theorem run_parallels (ho : o.Resembles R o') (hs : s.Resembles s') (ht : t.Resembles t') (command : String) :
    Parallels R ((o.executor s).run t command) ((o'.executor s').run t' command) := by
  intro w w' hw
  have hrun := handed_resembles ho hs ht command hw
  rw [o.run_course, o'.run_course]
  exact ⟨hrun.verdict, left_related ho hs ht command hw, .cons (.ran hrun) .nil⟩

theorem parallels_target {α : Type} (hs : s.Resembles s') (host : Address) {f : Target → Task (Observed W) α}
    {f' : Target → Task (Observed W') α} (hf : ∀ t t', t.Resembles t' → Parallels R (f t) (f' t')) :
    Parallels R (Task.ofExcept ((o.executor s).registry.target host) >>= f)
      (Task.ofExcept ((o'.executor s').registry.target host) >>= f') := by
  have htarget : Registry.Targets host ((o.executor s).registry.target host) ((o'.executor s').registry.target host) :=
    hs.registry.target host
  generalize (o.executor s).registry.target host = target, (o'.executor s').registry.target host = target' at htarget
  cases htarget with
  | unknown => exact parallels_throw _
  | known _ h => exact hf _ _ h

theorem execute_parallels (ho : o.Resembles R o') (hs : s.Resembles s') (host : Address) (command : String) :
    Parallels R ((o.executor s).execute host command) ((o'.executor s').execute host command) :=
  parallels_target hs host fun _ _ ht ↦ run_parallels ho hs ht command

theorem runEach_parallels (ho : o.Resembles R o') (hs : s.Resembles s') (ht : t.Resembles t') (commands : List String) :
    Parallels R ((o.executor s).runEach t commands) ((o'.executor s').runEach t' commands) := by
  induction commands with
  | nil => exact parallels_pure ()
  | cons command rest ih =>
    rw [Executor.runEach_cons, Executor.runEach_cons]
    split
    · exact ih
    · exact (run_parallels ho hs ht command).bind fun _ ↦ ih

theorem executeAll_parallels (ho : o.Resembles R o') (hs : s.Resembles s') (host : Address) (commands : List String) :
    Parallels R ((o.executor s).executeAll host commands) ((o'.executor s').executeAll host commands) :=
  parallels_target hs host fun _ _ ht ↦ runEach_parallels ho hs ht commands

theorem executeToString_parallels (ho : o.Resembles R o') (hs : s.Resembles s') (host : Address)
    (command separator : String) :
    Parallels R ((o.executor s).executeToString host command separator)
      ((o'.executor s').executeToString host command separator) := by
  refine (execute_parallels ho hs host command).bind fun output ↦ ?_
  rw [route_resembles o o' hs]
  split
  · exact (parallels_throw _).bind fun _ ↦ parallels_pure _
  · exact parallels_pure _

theorem ping_parallels (ho : o.Resembles R o') (hs : s.Resembles s') (host : Address) :
    Parallels R ((o.executor s).ping host) ((o'.executor s').ping host) := by
  rw [Executor.ping, Executor.ping, route_resembles o o' hs]
  cases (o'.executor s').route host with
  | here => exact parallels_pure ()
  | there => exact parallels_target hs host fun t t' ht ↦ parallels_ask (ho.ping t t' ht) fun _ ↦ .pinged ht _

theorem call_parallels (ho : o.Resembles R o') (hs : s.Resembles s') (call : Call) :
    Parallels R (call.work (o.executor s)) (call.work (o'.executor s')) := by
  cases call with
  | execute host command => exact (execute_parallels ho hs host command).bind fun _ ↦ parallels_pure _
  | executeAll host commands => exact (executeAll_parallels ho hs host commands).bind fun _ ↦ parallels_pure _
  | executeToString host command separator =>
    exact (executeToString_parallels ho hs host command separator).bind fun _ ↦ parallels_pure _
  | ping host => exact (ping_parallels ho hs host).bind fun _ ↦ parallels_pure _

structure Made.Resembles (R : W → W' → Prop) (made : Made W) (made' : Made W') : Prop where
  call : made.call = made'.call
  course : made.course.Resembles R made'.course

theorem conduct_resembles (ho : o.Resembles R o') (hs : s.Resembles s') (calls : List Call) {w : W} {w' : W'}
    (hw : R w w') :
    List.Forall₂ (Made.Resembles R) (conduct (o.executor s) calls w) (conduct (o'.executor s') calls w') := by
  induction calls generalizing w w' with
  | nil => exact .nil
  | cons call rest ih =>
    have hcall := call_parallels ho hs call w w' hw
    rw [conduct, conduct, hcall.result]
    refine .cons ⟨rfl, hcall⟩ ?_
    split
    · exact ih hcall.world
    · exact .nil

end Executors

theorem localRunner_resembles {m : Type → Type} [Monad m] {t t' : Target} (ht : t.Resembles t') (launch : Launch)
    (command : String) (limit : Option Duration) (sink : Option (Sink (OptionT m))) :
    localRunner launch t command limit sink = localRunner launch t' command limit sink := by
  simp only [localRunner, ht.host, ht.environment]

end Command

namespace Recovery

section Passes

variable {W W' : Type} {R : W → W' → Prop} {o : Outside W} {o' : Outside W'} {s s' : Setup}

theorem awaitDeletion_parallels (ho : o.Resembles R o') (hs : s.Resembles s') (space name : String) :
    Parallels R (awaitDeletion (o.context s) space name) (awaitDeletion (o'.context s') space name) := by
  have hlimit : (o.context s).watchTimeout = (o'.context s').watchTimeout := hs.watchTimeout
  refine (parallels_ask (ho.watchPod space name) fun _ ↦ .same _).bind fun script ↦ ?_
  refine (parallels_quietly ho.now).bind fun start ↦ ?_
  rw [hlimit]
  cases Watch.waitFrom? start (o'.context s').watchTimeout script with
  | none => exact parallels_abort
  | some waited =>
    have hpass : Matching R (fun w ↦ ((), o.pass waited.elapsed w)) (fun w ↦ ((), o'.pass waited.elapsed w)) :=
      fun w w' hw ↦ ⟨rfl, ho.pass waited.elapsed w w' hw⟩
    exact (parallels_quietly hpass).bind fun _ ↦ parallels_pure _

theorem deletePod_parallels (ho : o.Resembles R o') (hs : s.Resembles s') (p : PodAnomaly) :
    Parallels R (deletePod (o.context s) p) (deletePod (o'.context s') p) := by
  refine (parallels_ask (ho.deletePod p.space p.name) fun _ ↦ .same _).bind fun _ ↦ ?_
  exact (awaitDeletion_parallels ho hs p.space p.name).bind fun _ ↦ parallels_pure ()

theorem restartPod_parallels (ho : o.Resembles R o') (p : PodAnomaly) :
    Parallels R (restartPod (o.context s) p) (restartPod (o'.context s') p) := by
  refine (parallels_ask (ho.getPod p.space p.name) fun _ ↦ .same _).bind fun pod ↦ ?_
  refine (parallels_quietly ho.date).bind fun date ↦ ?_
  exact (parallels_ask (ho.replacePod p.space p.name _) fun _ ↦ .same _).bind fun _ ↦ parallels_pure ()

theorem locate_parallels (ho : o.Resembles R o') (pod space : String) :
    Parallels R (locate (o.context s) pod space) (locate (o'.context s') pod space) := by
  have hlist : Parallels R ((o.context s).cluster.resolveHost pod space)
      ((o'.context s').cluster.resolveHost pod space) :=
    (parallels_ask (ho.listPods space) fun _ ↦ .same _).bind fun _ ↦ parallels_pure _
  refine hlist.bind fun location ↦ ?_
  cases location.address? with
  | none => exact parallels_throw _
  | some host => exact parallels_pure host

theorem runOnHostOf_parallels (ho : o.Resembles R o') (hs : s.Resembles s') (pod space command : String) :
    Parallels R (runOnHostOf (o.context s) pod space command) (runOnHostOf (o'.context s') pod space command) :=
  (locate_parallels ho pod space).bind fun host ↦ executeAll_parallels ho hs host [command]

theorem recover_parallels (ho : o.Resembles R o') (hs : s.Resembles s') (action : String) (a : Anomaly) :
    Parallels R (recover (o.context s) action a) (recover (o'.context s') action a) := by
  cases a with
  | pod p =>
    simp only [recover]
    cases PodAction.parse action with
    | delete => exact (deletePod_parallels ho hs p).explain _
    | restart => exact (restartPod_parallels ho p).explain _
    | shell command => exact (runOnHostOf_parallels ho hs p.name p.space command).explain _
  | service svc => exact (runOnHostOf_parallels ho hs svc.pod "" _).explain _

theorem recoverAll_parallels (ho : o.Resembles R o') (hs : s.Resembles s') (action : String)
    (anomalies : List Anomaly) :
    Parallels R (recoverAll (o.context s) action anomalies) (recoverAll (o'.context s') action anomalies) := by
  induction anomalies with
  | nil => exact parallels_pure ()
  | cons a rest ih => exact (recover_parallels ho hs action a).bind fun _ ↦ ih

theorem recoverRule_parallels (ho : o.Resembles R o') (hs : s.Resembles s') (r : RuleResult) :
    Parallels R (recoverRule (o.context s) r) (recoverRule (o'.context s') r) := by
  unfold recoverRule
  cases r.rule.enabledRecovery? with
  | none => exact parallels_pure ()
  | some recovery =>
    refine Parallels.explain ?_ _
    exact (parallels_ofExcept _).bind fun anomalies ↦ recoverAll_parallels ho hs recovery.action anomalies

theorem run_parallels (ho : o.Resembles R o') (hs : s.Resembles s') (results : List RuleResult) :
    Parallels R (run (o.context s) results) (run (o'.context s') results) := by
  induction results with
  | nil => exact parallels_pure ()
  | cons r rest ih => exact (recoverRule_parallels ho hs r).bind fun _ ↦ ih

end Passes

end Recovery

namespace Observation

section Records

variable {W W' α : Type}

abbrev Shown := List (Address × String)

def beside (f : W → α × W) : W × Shown → α × (W × Shown) := fun (w, shown) ↦ ((f w).1, (f w).2, shown)

/-- The outside with a record of the lines that it is shown. -/
def Outside.recording (o : Outside W) : Outside (W × Shown) where
  listPods space := beside (o.listPods space)
  getPod space name := beside (o.getPod space name)
  replacePod space name pod := beside (o.replacePod space name pod)
  deletePod space name := beside (o.deletePod space name)
  watchPod space name := beside (o.watchPod space name)
  command route t text limit streamed := beside (o.command route t text limit streamed)
  ping t := beside (o.ping t)
  display host line := fun (w, shown) ↦ (o.display host line w, shown ++ [(host, line)])
  now := beside o.now
  pass d := fun (w, shown) ↦ (o.pass d w, shown)
  date := beside o.date

def Recorded (R : W → W' → Prop) (w : W × Shown) (w' : W' × Shown) : Prop := R w.1 w'.1 ∧ w.2 = w'.2

variable {R : W → W' → Prop}

theorem Matching.beside {f : W → α × W} {f' : W' → α × W'} (h : Matching R f f') :
    Matching (Recorded R) (beside f) (beside f') := by
  rintro ⟨w, shown⟩ ⟨w', shown'⟩ ⟨hw, hshown⟩
  obtain ⟨hvalue, hleft⟩ := h w w' hw
  exact ⟨hvalue, hleft, hshown⟩

theorem Outside.Resembles.recording {o : Outside W} {o' : Outside W'} (ho : o.Resembles R o') :
    o.recording.Resembles (Recorded R) o'.recording where
  listPods space := (ho.listPods space).beside
  getPod space name := (ho.getPod space name).beside
  replacePod space name pod := (ho.replacePod space name pod).beside
  deletePod space name := (ho.deletePod space name).beside
  watchPod space name := (ho.watchPod space name).beside
  command route t t' text limit streamed ht := (ho.command route t t' text limit streamed ht).beside
  ping t t' ht := (ho.ping t t' ht).beside
  display host line w w' hw :=
    ⟨ho.display host line w.1 w'.1 hw.1, congrArg (· ++ [(host, line)]) hw.2⟩
  now := ho.now.beside
  pass d w w' hw := ⟨ho.pass d w.1 w'.1 hw.1, hw.2⟩
  date := ho.date.beside

end Records

end Observation

/-- Whatever passwords and passphrases are set, as long as the same ones are: outsides that answer alike are asked alike
and shown the same lines by a pass and by any calls, with the same results. Of the ways to run a command, a shell of
this machine is given no secret, and a session asks servers that answer alike for the same, with the same result. -/
theorem secrets_untold {W W' : Type} {R : W → W' → Prop} {o : Outside W} {o' : Outside W'} {s s' : Setup}
    (ho : o.Resembles R o') (hs : s.Resembles s') {w : W} {w' : W'} (hw : R w w') :
    (∀ results, (perform (run (o.recording.context s) results) (w, [])).Resembles (Recorded R)
      (perform (run (o'.recording.context s') results) (w', []))) ∧
    (∀ calls, List.Forall₂ (Made.Resembles (Recorded R)) (conduct (o.recording.executor s) calls (w, []))
      (conduct (o'.recording.executor s') calls (w', []))) ∧
    ∀ t t' : Target, t.Resembles t' → ∀ (command : String) (limit : Option Duration),
      (∀ (m : Type → Type) [Monad m] (launch : Launch) (sink : Option (Sink (OptionT m))),
        localRunner launch t command limit sink = localRunner launch t' command limit sink) ∧
      ∀ p p' : Ssh.Peer, p.Resembles p' → ∀ connectTimeout,
        Ssh.Tallies (Ssh.run p connectTimeout t command limit) (Ssh.run p' connectTimeout t' command limit) ∧
        Ssh.Tallies (Ssh.ping p connectTimeout t) (Ssh.ping p' connectTimeout t') := by
  have hrecorded : Recorded R (w, []) (w', []) := ⟨hw, rfl⟩
  refine ⟨fun results ↦ Recovery.run_parallels ho.recording hs results _ _ hrecorded,
    fun calls ↦ conduct_resembles ho.recording hs calls hrecorded, fun t t' ht command limit ↦ ⟨?_, ?_⟩⟩
  · intro m _ launch sink
    exact localRunner_resembles ht launch command limit sink
  · intro p p' hp connectTimeout
    exact ⟨Ssh.run_tallies hp connectTimeout ht command limit, Ssh.ping_tallies hp connectTimeout ht⟩

def Observation.Setup.guarded (password passphrase : String) : Setup :=
  { Setup.oneHost (.v4 ⟨10, 0, 0, 9⟩) "ops" with
    registry :=
      ⟨[⟨[.v4 ⟨10, 0, 0, 9⟩], [], { Credential.empty with keyPath := "id", keyPassphrase := passphrase }, []⟩],
        { Credential.empty with user := "ops", password := password }⟩ }

def Observation.Outside.failing : Outside Unit :=
  { Outside.agreeing (onePod "api-0" "10.0.0.9") with
    command := fun _ _ _ _ _ w ↦ ((["no"], some (.ok ⟨1, "no\n"⟩)), w) }

/-- A pass and a call whose commands fail, with one pair of secrets and with another. -/
theorem secrets_untold_failing :
    (Setup.guarded "alpha" "beta").registry ≠ (Setup.guarded "gamma" "delta").registry ∧
    (perform (run (Outside.failing.recording.context (Setup.guarded "alpha" "beta"))
        [.under ⟨.pod, "reboot", true⟩ (sampleOf [("namespace", "prod"), ("pod", "api-0")])]) ((), [])).Resembles
      (Recorded fun _ _ ↦ True)
      (perform (run (Outside.failing.recording.context (Setup.guarded "gamma" "delta"))
        [.under ⟨.pod, "reboot", true⟩ (sampleOf [("namespace", "prod"), ("pod", "api-0")])]) ((), [])) ∧
    ∃ made, conduct (Outside.failing.recording.executor (Setup.guarded "alpha" "beta"))
        [.execute (.v4 ⟨10, 0, 0, 9⟩) "id"] ((), []) = [made] ∧
      made.course.result =
        some (.error (.commandFailed (.v4 ⟨10, 0, 0, 9⟩) (wrapPrivileged "id") 1 "no\n")) ∧
      made.course.world = ((), [(.v4 ⟨10, 0, 0, 9⟩, "no")]) ∧
      List.Forall₂ (Made.Resembles (Recorded fun _ _ ↦ True)) [made]
        (conduct (Outside.failing.recording.executor (Setup.guarded "gamma" "delta"))
          [.execute (.v4 ⟨10, 0, 0, 9⟩) "id"] ((), [])) := by
  have ho : Outside.failing.Resembles (fun _ _ ↦ True) Outside.failing := by
    constructor <;> intros <;> first | trivial | exact fun _ _ _ ↦ ⟨rfl, trivial⟩
  have hs : (Setup.guarded "alpha" "beta").Resembles (Setup.guarded "gamma" "delta") := by
    have hentry : Credential.Resembles { Credential.empty with keyPath := "id", keyPassphrase := "beta" }
        { Credential.empty with keyPath := "id", keyPassphrase := "delta" } :=
      ⟨rfl, rfl, .inl rfl, rfl, .inr (by decide), rfl⟩
    have hcommon : Credential.Resembles { Credential.empty with user := "ops", password := "alpha" }
        { Credential.empty with user := "ops", password := "gamma" } :=
      ⟨rfl, rfl, .inr (by decide), rfl, .inl rfl, rfl⟩
    exact ⟨⟨.cons ⟨rfl, rfl, hentry, rfl⟩ .nil, hcommon⟩, rfl, rfl, rfl⟩
  obtain ⟨hpass, hcalls, -⟩ := secrets_untold ho hs trivial
  exact ⟨by decide, hpass _, _, rfl, rfl, rfl, hcalls [.execute (.v4 ⟨10, 0, 0, 9⟩) "id"]⟩

end SelfHealing
