import SelfHealing.Proofs.Outside

/-!
The order of a recovery pass. Its rules and their samples make an agenda of jobs, and a pass does one job after the
other, each in the world that the one before has left. Main statement: what a pass asks of the outside is what its
jobs ask, up to and with the first job that does not succeed.
-/

namespace SelfHealing.Recovery

open Observation

/-- One thing that a pass has to do: a recovery, or the refusal of a result that shows no anomalies. -/
inductive Job
  | recover (rule action : String) (anomaly : Anomaly)
  | refuse (rule kind : String)

def RuleResult.jobs (r : RuleResult) : List Job :=
  match r.rule.enabledRecovery? with
  | none => []
  | some recovery =>
    match r.result.labelSets? with
    | none => [.refuse r.rule.name r.result.kind]
    | some sets => sets.map fun labels ↦
        .recover r.rule.name recovery.action (Anomaly.ofLabels recovery.workload labels)

def agenda (results : List RuleResult) : List Job := results.flatMap RuleResult.jobs

namespace Job

def rule : Job → String
  | recover rule _ _ => rule
  | refuse rule _ => rule

variable {W : Type} (ctx : Context (Observed W))

def course : Job → W → Course W (Except Error Unit)
  | recover _ action a, w => perform (Recovery.recover ctx action a) w
  | refuse _ kind, w => ⟨some (.error (.unsupportedResult kind)), w, []⟩

end Job

variable {W : Type} (ctx : Context (Observed W))

/-- The courses of all jobs, each in the world that the one before has left, even after a failure. -/
def rounds (w : W) : List Job → List (Course W (Except Error Unit))
  | [] => []
  | job :: rest => job.course ctx w :: rounds (job.course ctx w).world rest

/-- The jobs up to the first that does not succeed, whose failure names its rule. -/
def pursue (w : W) : List Job → Course W (Except Error Unit)
  | [] => ⟨some (.ok ()), w, []⟩
  | job :: rest => ((job.course ctx w).explain (.ruleFailed job.rule)).andThen fun _ v ↦ pursue v rest

def upToFailure : List (Course W (Except Error Unit)) → List (Course W (Except Error Unit))
  | [] => []
  | c :: rest =>
    match c.result with
    | some (.ok ()) => c :: upToFailure rest
    | _ => [c]

theorem run_append {m : Type → Type} [Monad m] [LawfulMonad m] (ctx : Context m) (front back : List RuleResult) :
    run ctx (front ++ back) = run ctx front >>= fun _ ↦ run ctx back := by
  induction front with
  | nil => simp [run]
  | cons r rest ih => simp [run, ih]

theorem recoverAll_course (rule action : String) (anomalies : List Anomaly) (w : W) :
    (perform (recoverAll ctx action anomalies) w).explain (.ruleFailed rule) =
      pursue ctx w (anomalies.map (.recover rule action)) := by
  induction anomalies generalizing w with
  | nil => rfl
  | cons a rest ih =>
    simp only [recoverAll, perform_bind, Course.explain_andThen, ih]
    rfl

theorem recoverRule_course (r : RuleResult) (w : W) : perform (recoverRule ctx r) w = pursue ctx w r.jobs := by
  unfold recoverRule RuleResult.jobs
  cases r.rule.enabledRecovery? with
  | none => rfl
  | some recovery =>
    simp only [perform_explain, perform_bind, perform_ofExcept, classify]
    cases r.result.labelSets? with
    | none => rfl
    | some sets =>
      simp only [Course.andThen_ok, Course.after_nil, recoverAll_course, List.map_map]
      rfl

theorem pursue_append (front back : List Job) (w : W) :
    pursue ctx w (front ++ back) = (pursue ctx w front).andThen fun _ v ↦ pursue ctx v back := by
  induction front generalizing w with
  | nil => rfl
  | cons job rest ih => simp only [List.cons_append, pursue, Course.andThen_assoc, ih]

theorem run_course (results : List RuleResult) (w : W) :
    perform (run ctx results) w = pursue ctx w (agenda results) := by
  induction results generalizing w with
  | nil => rfl
  | cons r rest ih =>
    simp only [run, perform_bind, recoverRule_course, ih, agenda, List.flatMap_cons, pursue_append]

theorem pursue_events (jobs : List Job) (w : W) :
    (pursue ctx w jobs).events = (upToFailure (rounds ctx w jobs)).flatMap Course.events := by
  induction jobs generalizing w with
  | nil => rfl
  | cons job rest ih =>
    simp only [pursue, rounds, upToFailure]
    rcases job.course ctx w with ⟨_ | e | _, v, es⟩
    · simp
    · simp
    · simp [ih]

theorem pursue_ok_iff (jobs : List Job) (w : W) :
    (pursue ctx w jobs).result = some (.ok ()) ↔ ∀ c ∈ rounds ctx w jobs, c.result = some (.ok ()) := by
  induction jobs generalizing w with
  | nil => simp [pursue, rounds]
  | cons job rest ih =>
    simp only [pursue, rounds, List.forall_mem_cons]
    rcases job.course ctx w with ⟨_ | e | _, v, es⟩
    · simp
    · simp
    · simp [ih]

/-- A pass asks what the jobs of its agenda ask, up to and with the first that does not succeed, and it succeeds when
they all do. What comes later in its list begins in the world that the rest has left; a rule without an enabled
recovery changes nothing, and one with a single value for its result fails at its turn and asks nothing. -/
theorem run_follows_agenda (o : Outside W) (s : Setup) (results : List RuleResult) (w : W) :
    (perform (run (o.context s) results) w).events =
        (upToFailure (rounds (o.context s) w (agenda results))).flatMap Course.events ∧
      ((perform (run (o.context s) results) w).result = some (.ok ()) ↔
        ∀ c ∈ rounds (o.context s) w (agenda results), c.result = some (.ok ())) ∧
      (∀ more, perform (run (o.context s) (results ++ more)) w =
        (perform (run (o.context s) results) w).andThen fun _ v ↦ perform (run (o.context s) more) v) ∧
      (∀ r more, r.rule.enabledRecovery? = none →
        perform (run (o.context s) (results ++ r :: more)) w =
          perform (run (o.context s) (results ++ more)) w) ∧
      ∀ r more recovery point, r.rule.enabledRecovery? = some recovery →
        r.result = .scalar point ∨ r.result = .text point →
        perform (run (o.context s) (results ++ r :: more)) w =
          (perform (run (o.context s) results) w).andThen fun _ v ↦
            ⟨some (.error (.ruleFailed r.rule.name (.unsupportedResult r.result.kind))), v, []⟩ := by
  have happend (front back : List RuleResult) : perform (run (o.context s) (front ++ back)) w =
      (perform (run (o.context s) front) w).andThen fun _ v ↦ perform (run (o.context s) back) v := by
    rw [run_append, perform_bind]
  refine ⟨?_, ?_, happend results, ?_, ?_⟩
  · rw [run_course, pursue_events]
  · rw [run_course, pursue_ok_iff]
  · intro r more hr
    have hjobs : r.jobs = [] := by simp only [RuleResult.jobs, hr]
    simp only [run_course, agenda, List.flatMap_append, List.flatMap_cons, hjobs, List.nil_append]
  · intro r more recovery point hr hresult
    have hsets : r.result.labelSets? = none := by rcases hresult with h | h <;> rw [h] <;> rfl
    have hjobs : r.jobs = [.refuse r.rule.name r.result.kind] := by simp only [RuleResult.jobs, hr, hsets]
    rw [happend]
    congr 1
    funext _ v
    simp only [run_course, agenda, List.flatMap_cons, hjobs]
    rfl

def RuleResult.under (recovery : Recovery) (result : QueryResult) : RuleResult :=
  ⟨⟨"rule", "", some recovery⟩, result⟩

def sampleOf (labels : Labels) : QueryResult := .vector [⟨labels, ⟨⟨0⟩, "1"⟩⟩]

/-- A pass over a pod, then a scalar under a rule that is switched off, then one under a rule that is not. -/
theorem run_follows_agenda_scalar :
    perform (run ((Outside.agreeing []).context (.oneHost default "root"))
        [.under ⟨.pod, "delete", true⟩ (sampleOf [("namespace", "prod"), ("pod", "api-0")]),
          .under ⟨.pod, "delete", false⟩ (.scalar ⟨⟨0⟩, "1"⟩),
          .under ⟨.pod, "delete", true⟩ (.scalar ⟨⟨0⟩, "1"⟩)]) () =
      ⟨some (.error (.ruleFailed "rule" (.unsupportedResult "scalar"))), (),
        [.deleted "prod" "api-0" (some (.ok ())), .watched "prod" "api-0" (some (.ok ⟨[], .closed⟩))]⟩ := by
  have hlaw := run_follows_agenda (.agreeing []) (.oneHost default "root")
    [.under ⟨.pod, "delete", true⟩ (sampleOf [("namespace", "prod"), ("pod", "api-0")])] ()
  have hoff := hlaw.2.2.2.1 (.under ⟨.pod, "delete", false⟩ (.scalar ⟨⟨0⟩, "1"⟩))
    [.under ⟨.pod, "delete", true⟩ (.scalar ⟨⟨0⟩, "1"⟩)] rfl
  have hon := hlaw.2.2.2.2 (.under ⟨.pod, "delete", true⟩ (.scalar ⟨⟨0⟩, "1"⟩)) [] ⟨.pod, "delete", true⟩
    ⟨⟨0⟩, "1"⟩ rfl (.inl rfl)
  exact hoff.trans (hon.trans rfl)

end SelfHealing.Recovery
