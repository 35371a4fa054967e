import SelfHealing.CommandLine.Arguments

/-!
The command line of the program: what may be asked of it, and with which settings.
-/

namespace SelfHealing.CommandLine

open Net

inductive Verb
  | run
  | ping
  | exec
  deriving DecidableEq, Repr

namespace Verb

def all : List Verb := [run, ping, exec]

def name : Verb → String
  | run => "run"
  | ping => "ping"
  | exec => "exec"

def ofName? (s : String) : Option Verb := all.find? (·.name = s)

def purpose : Verb → String
  | run => "Run the recovery pass for a set of matched rule results"
  | ping => "Check that registry hosts accept a session"
  | exec => "Run one command on a registry host and print its output"

end Verb

def helpName : String := "help"

def globalForm : Form :=
  { parameters :=
      [.switch ⟨"verbose", some 'v', "Enable verbose logging"⟩,
        .setting ⟨"kubeconfig", .path, some "REMEDY_KUBECONFIG", none, false,
          "Path to a kubeconfig file (defaults to in-cluster or `~/.kube/config`)"⟩,
        .setting ⟨"command-timeout", .count, some "REMEDY_COMMAND_TIMEOUT", some "600", false,
          "Deadline for a single command in seconds (0 disables it)"⟩,
        .setting ⟨"connect-timeout", .count, some "REMEDY_CONNECT_TIMEOUT", some "10", false,
          "SSH connect timeout in seconds"⟩,
        .setting ⟨"watch-timeout", .count, some "REMEDY_WATCH_TIMEOUT", some "300", false,
          "How long to wait for a deleted pod to disappear, in seconds"⟩,
        .switch ⟨"no-stream", none, "Do not stream command output while commands run"⟩]
    words := none }

def configurationSetting (purpose : String) : Parameter :=
  .setting ⟨"config", .path, some "REMEDY_CONFIG", none, true, purpose⟩

def Verb.form : Verb → Form
  | run =>
    { parameters :=
        [configurationSetting "Host registry and rule file (YAML)",
          .setting ⟨"results", .path, none, none, true,
            "Matched results: JSON object of rule name to query `data`"⟩]
      words := none }
  | ping =>
    { parameters :=
        [configurationSetting "Host registry file (YAML)",
          .setting ⟨"host", .address, none, none, false, "Only ping this host"⟩]
      words := none }
  | exec =>
    { parameters :=
        [configurationSetting "Host registry file (YAML)",
          .setting ⟨"host", .address, none, none, true, "Target host"⟩]
      words := some "Command to run (joined with spaces)" }

/-- Timeouts are in seconds. -/
structure Settings where
  verbose : Bool
  kubeconfig : Option String
  commandTimeout : Nat
  connectTimeout : Nat
  watchTimeout : Nat
  streams : Bool
  deriving DecidableEq, Repr

inductive Job
  | run (configuration results : String)
  | ping (configuration : String) (host : Option Address)
  | exec (configuration : String) (host : Address) (words : List String)
  deriving DecidableEq, Repr

structure Invocation where
  settings : Settings
  job : Job
  deriving DecidableEq, Repr

inductive Topic
  | program
  | verb (v : Verb)
  | help
  deriving DecidableEq, Repr

inductive Reading
  | invocation (i : Invocation)
  | help (topic : Topic)
  | usage
  deriving DecidableEq, Repr

namespace Given

def counted? (g : Given) (name : String) : Option Nat := (g.value? name).bind count?

def addressed? (g : Given) (name : String) : Option Address := (g.value? name).bind Address.parse?

def settings? (g : Given) : Option Settings := do
  some
    { verbose := "verbose" ∈ g.switches
      kubeconfig := g.value? "kubeconfig"
      commandTimeout := ← g.counted? "command-timeout"
      connectTimeout := ← g.counted? "connect-timeout"
      watchTimeout := ← g.counted? "watch-timeout"
      streams := "no-stream" ∉ g.switches }

def job? (g : Given) (verb : Verb) : Option Job := do
  let configuration ← g.value? "config"
  match verb with
  | .run => some (.run configuration (← g.value? "results"))
  | .ping => some (.ping configuration (g.addressed? "host"))
  | .exec => some (.exec configuration (← g.addressed? "host") g.words)

end Given

def Stop.reading (topic : Topic) : Stop → Reading
  | help => .help topic
  | usage => .usage

def readHelp : List String → Reading
  | [] => .help .program
  | [topic] =>
    match Verb.ofName? topic with
    | some verb => .help (.verb verb)
    | none => if topic = helpName then .help .help else .usage
  | _ => .usage

/-- The arguments of a verb. They are read before the settings in front of it are complete. -/
def readVerb (environment : List (String × String)) (globals : Given) (verb : Verb)
    (args : List String) : Reading :=
  let own := do
    let (g, _) ← readArguments verb.form [] .start args
    complete verb.form environment g
  match own, complete globalForm environment globals with
  | .error stop, _ => stop.reading (.verb verb)
  | .ok _, .error stop => stop.reading .program
  | .ok own, .ok globals =>
    match globals.settings?, own.job? verb with
    | some settings, some job => .invocation ⟨settings, job⟩
    | _, _ => .usage

def read (environment : List (String × String)) (args : List String) : Reading :=
  match readArguments globalForm (helpName :: Verb.all.map Verb.name) .start args with
  | .error stop => stop.reading .program
  | .ok (_, []) => .usage
  | .ok (globals, name :: rest) =>
    match Verb.ofName? name with
    | some verb => readVerb environment globals verb rest
    | none => readHelp rest

end SelfHealing.CommandLine
