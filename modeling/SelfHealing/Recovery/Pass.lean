import SelfHealing.Anomaly
import SelfHealing.Cluster
import SelfHealing.Command.Executor
import SelfHealing.Recovery.Action
import SelfHealing.Recovery.Clock

/-!
The recovery of anomalies, one after the other. The first failure ends the pass, and what was done stays done.
-/

namespace SelfHealing.Recovery

open Net Time

def standardWatchTimeout : Duration := .ofSeconds 300

structure Context (m : Type → Type) where
  cluster : Cluster m
  executor : Command.Executor m
  clock : Clock m
  watchTimeout : Duration

def systemName : String := "patrol"

def restartedAt : String := "kubectl.kubernetes.io/restartedAt"

def restartedBy : String := "kubectl.kubernetes.io/restartedBy"

/-- A pod marked as restarted, which makes its owner replace it. -/
def markRestarted (date : Timestamp) (p : Pod) : Pod :=
  (p.annotate restartedAt date.rfc3339).annotate restartedBy systemName

variable {m : Type → Type} [Monad m]

/-- Waits for a pod that has been deleted. However the wait ends, the deletion was accepted. -/
def awaitDeletion (ctx : Context m) (space name : String) : Task m Watch.Outcome := do
  let script ← Task.call (ctx.cluster.watchPod space name)
  let start ← Task.lift ctx.clock.now
  match Watch.waitFrom? start ctx.watchTimeout script with
  | none => Task.abort
  | some waited =>
    Task.lift (ctx.clock.pass waited.elapsed)
    return waited.outcome

def deletePod (ctx : Context m) (p : PodAnomaly) : Task m Unit := do
  Task.call (ctx.cluster.deletePod p.space p.name)
  let _ ← awaitDeletion ctx p.space p.name

def restartPod (ctx : Context m) (p : PodAnomaly) : Task m Unit := do
  let pod ← Task.call (ctx.cluster.getPod p.space p.name)
  let date ← Task.lift ctx.clock.date
  let _ ← Task.call (ctx.cluster.replacePod p.space p.name (markRestarted date pod))

def locate (ctx : Context m) (pod space : String) : Task m Address := do
  let location ← ctx.cluster.resolveHost pod space
  match location.address? with
  | some host => return host
  | none => throw (.hostUnresolved pod space)

def runOnHostOf (ctx : Context m) (pod space command : String) : Task m Unit := do
  let host ← locate ctx pod space
  ctx.executor.executeAll host [command]

def recoverPod (ctx : Context m) (p : PodAnomaly) : PodAction → Task m Unit
  | .delete => (deletePod ctx p).explain (.deleteFailed p.space p.name)
  | .restart => (restartPod ctx p).explain (.restartFailed p.space p.name)
  | .shell command =>
    (runOnHostOf ctx p.name p.space command).explain (.shellFailed p.space p.name command)

/-- A service is recovered on the host of its pod, which is looked for in all namespaces. -/
def recoverService (ctx : Context m) (s : ServiceAnomaly) (action : ServiceAction) : Task m Unit :=
  let command := action.command s.service
  (runOnHostOf ctx s.pod "" command).explain (.serviceActionFailed s.service s.pod command)

def recover (ctx : Context m) (action : String) : Anomaly → Task m Unit
  | .pod p => recoverPod ctx p (PodAction.parse action)
  | .service s => recoverService ctx s (ServiceAction.parse action)

def recoverAll (ctx : Context m) (action : String) : List Anomaly → Task m Unit
  | [] => pure ()
  | a :: rest => do
    recover ctx action a
    recoverAll ctx action rest

structure RuleResult where
  rule : Rule
  result : QueryResult
  deriving DecidableEq, Repr

def recoverRule (ctx : Context m) (r : RuleResult) : Task m Unit :=
  match r.rule.enabledRecovery? with
  | none => pure ()
  | some recovery => Task.explain (.ruleFailed r.rule.name) do
    let anomalies ← Task.ofExcept (classify recovery.workload r.result)
    recoverAll ctx recovery.action anomalies

def run (ctx : Context m) : List RuleResult → Task m Unit
  | [] => pure ()
  | r :: rest => do
    recoverRule ctx r
    run ctx rest

end SelfHealing.Recovery
