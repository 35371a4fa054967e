import SelfHealing.CommandLine.Help
import SelfHealing.Configuration.Reader
import SelfHealing.Kubernetes.Kubeconfig
import SelfHealing.Program.Report
import SelfHealing.Recovery.Results

/-!
The program: it repairs what results point to, tries whether hosts can be reached, or runs a command on one of them.
-/

namespace SelfHealing.Program

open CommandLine Net Recovery Time

structure Machine (m : Type → Type) where
  environment : List (String × String)
  file? : String → Option String
  interfaces? : Option (List InterfaceEntry)
  transports : Duration → Command.Transports m
  cluster : Kubernetes.Access → Cluster m
  clock : Clock m

inductive Outcome
  | usage
  | help (text : String)
  | report (r : Report)
  deriving DecidableEq, Repr

namespace Outcome

def code : Outcome → Nat
  | usage => 2
  | help _ => 0
  | report r => if r.failure.isSome then 1 else 0

end Outcome

/-- Timeouts as an executor takes them; no seconds at all for a command stand for no limit. -/
def options (s : Settings) (streams : Bool) : Command.Options :=
  { commandTimeout := if 0 < s.commandTimeout then some (.ofSeconds s.commandTimeout) else none
    connectTimeout := .ofSeconds s.connectTimeout
    streamOutput := streams }

/-- The kubeconfigs that the environment names, else the one of the home directory. -/
def standardPaths (environment : List (String × String)) : List String :=
  let listed := ((environment.lookup "KUBECONFIG").getD "").splitOn ":" |>.filter (· ≠ "")
  if listed.isEmpty then
    (environment.lookup "HOME").toList.map fun home ↦ s!"{home}/.kube/config"
  else listed

def variableNames : List String :=
  let sources := fun (f : Form) ↦ f.settings.filterMap (·.source)
  "KUBECONFIG" :: "HOME" :: "PATH" :: sources globalForm ++
    CommandLine.Verb.all.flatMap (sources ·.form)

def filesRead (environment : List (String × String)) (i : Invocation) : List String :=
  match i.job with
  | .run configuration results =>
    configuration :: results :: match i.settings.kubeconfig with
      | some path => [path]
      | none => standardPaths environment
  | .ping configuration _ | .exec configuration _ _ => [configuration]

namespace Machine

variable {m : Type → Type} [Monad m]

def loadConfiguration (mc : Machine m) (path : String) : Except Error Configuration :=
  match mc.file? path with
  | some text => Configuration.parse text
  | none => .error (.configuration s!"Failed to read config {path}: it cannot be read")

def configuration (mc : Machine m) (path : String) : Except Failure Configuration :=
  (mc.loadConfiguration path).mapError (.configuration path)

def results (mc : Machine m) (rules : List Rule) (path : String) : Except Failure (List RuleResult) :=
  match mc.file? path with
  | none => .error (.resultsMissing path)
  | some text =>
    match Results.parse? text with
    | some results => .ok (Results.join rules results)
    | none => .error (.resultsMalformed path)

def readKubeconfig (mc : Machine m) (path : String) : Except Error Kubernetes.Kubeconfig :=
  match (mc.file? path).bind Kubernetes.Kubeconfig.parse? with
  | some k => .ok k
  | none => .error (.configuration s!"Failed to read kubeconfig {path}: it is none")

def accessFrom (mc : Machine m) (path : String) : Except Error Kubernetes.Access := do
  match (← mc.readKubeconfig path).access? with
  | some access => return access
  | none => throw (.configuration s!"Invalid kubeconfig {path}: it leads to no server")

def standardAccess? (mc : Machine m) : Option Kubernetes.Access := do
  let paths := standardPaths mc.environment
  if paths.isEmpty then none
  else
    let k ← paths.foldlM (fun k path ↦ do
      k.merge? (← (mc.file? path).bind Kubernetes.Kubeconfig.parse?)) Kubernetes.Kubeconfig.empty
    k.access?

def access (mc : Machine m) (kubeconfig : Option String) : Except Error Kubernetes.Access :=
  match kubeconfig with
  | some path => mc.accessFrom path
  | none =>
    match mc.standardAccess? with
    | some access => .ok access
    | none => .error (.clusterApi "connect" "no kubeconfig leads to a server")

/-- Without a list of the interfaces every host counts as another one. -/
def own (mc : Machine m) : List Address := (mc.interfaces?.map localAddresses).getD []

/-- Streamed lines go to the log, which is no part of the output. -/
def executor (mc : Machine m) (registry : Registry) (o : Command.Options) : Command.Executor m :=
  { registry := registry
    own := mc.own
    transports := mc.transports o.connectTimeout
    options := o
    sink := fun _ _ ↦ pure () }

abbrev Work (m : Type → Type) := ExceptT Failure (OptionT m)

def Work.ofExcept {α : Type} : Except Failure α → Work m α
  | .ok a => pure a
  | .error f => throw f

def attempt {α : Type} (f : Error → Failure) (x : Task m α) : Work m α := ExceptT.adapt f x

def recover (mc : Machine m) (s : Settings) (configuration results : String) : Work m String := do
  let c ← Work.ofExcept (mc.configuration configuration)
  let matched ← Work.ofExcept (mc.results c.rules results)
  let access ← Work.ofExcept ((mc.access s.kubeconfig).mapError .client)
  let ctx : Recovery.Context m :=
    { cluster := mc.cluster access
      executor := mc.executor c.registry (options s s.streams)
      clock := mc.clock
      watchTimeout := .ofSeconds s.watchTimeout }
  attempt .recovery (Recovery.run ctx matched)
  return ""

def exec (mc : Machine m) (s : Settings) (configuration : String) (host : Address)
    (words : List String) : Work m String := do
  let c ← Work.ofExcept (mc.configuration configuration)
  let e := mc.executor c.registry (options s false)
  attempt (.command host) (e.execute host (" ".intercalate words))

def hostWidth : Nat := 40

def pingLine (host : Address) (result : Except Error Unit) : String :=
  let told := match result with
    | .ok () => "ok"
    | .error e => e.message
  s!"{padTo hostWidth host.text} {told}\n"

def pingEach (e : Command.Executor m) (hosts : List Address) :
    OptionT m (List (Address × Except Error Unit)) :=
  hosts.mapM fun host ↦ do return (host, ← (e.ping host).run)

def ping (mc : Machine m) (s : Settings) (configuration : String) (host : Option Address) :
    OptionT m Report := do
  match mc.configuration configuration with
  | .error f => return .ofExcept (.error f)
  | .ok c =>
    let hosts := match host with
      | some host => [host]
      | none => c.registry.addresses
    let results ← pingEach (mc.executor c.registry (options s s.streams)) hosts
    let failed := results.countP fun r ↦ !r.2.isOk
    return {
      output := String.join (results.map fun (host, result) ↦ pingLine host result)
      failure := if 0 < failed then some (.unreachable failed hosts.length) else none }

def carryOut (mc : Machine m) (i : Invocation) : OptionT m Report :=
  match i.job with
  | .run configuration results => do
    return .ofExcept (← (mc.recover i.settings configuration results).run)
  | .ping configuration host => mc.ping i.settings configuration host
  | .exec configuration host words => do
    return .ofExcept (← (mc.exec i.settings configuration host words).run)

def run (mc : Machine m) (args : List String) : OptionT m Outcome :=
  match CommandLine.read mc.environment args with
  | .usage => return .usage
  | .help topic => return .help (helpText mc.environment topic)
  | .invocation i => do return .report (← mc.carryOut i)

end Machine

end SelfHealing.Program
