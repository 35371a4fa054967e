import SelfHealing.Program
import SelfHealing.Simulation.World

/-!
A machine in a world: a directory of files, variables and interfaces. Its shell is the one of this library, and no
cluster answers.
-/

namespace SelfHealing.Simulation

open Command Net Program Time

namespace PodStore

def unreachable : PodStore :=
  { pods := []
    refusals := [.list, .get, .update, .delete, .watch].map fun kind ↦
      ⟨kind, none, "Network is unreachable (os error 101)"⟩
    stories := []
    calls := [] }

end PodStore

namespace World

def onWire (wire : Wire) : World :=
  { pods := .unreachable
    hosts := ⟨[], [], []⟩
    wire := wire
    time := ⟨0⟩
    date := default
    shown := [] }

end World

/-- A path from the directory of the files, without steps that stay where they are. -/
def plainPath : List Char → List Char
  | '.' :: '/' :: rest => plainPath rest
  | cs => cs

def fileIn (files : List (String × String)) (path : String) : Option String :=
  files.lookup (String.ofList (plainPath path.toList))

def childWith (environment : List (String × String)) : Launch := fun command own ↦
  Shell.child command (environment.map (fun (key, value) ↦ ⟨key, value⟩) ++ own)

/-- The home directory is the directory of the files. -/
def machine (environment files : List (String × String)) (interfaces : Option (List InterfaceEntry)) :
    Machine Sim :=
  let environment := environment ++ [("HOME", ".")]
  { environment := environment
    file? := fileIn files
    interfaces? := interfaces
    transports := fun patience ↦
      { World.sshTransports patience with runHere := localRunner (childWith environment) }
    cluster := fun _ ↦ World.cluster
    clock := World.clock }

end SelfHealing.Simulation
