import SelfHealing.Simulation.Machine

/-!
The command line. It reads the variables and files that a run may look at, and writes what the run tells.
-/

namespace SelfHealing.Program

open CommandLine

def readVariables : IO (List (String × String)) := do
  let values ← variableNames.mapM fun name ↦ do return (← IO.getEnv name).map (name, ·)
  return values.filterMap id

def readFiles (paths : List String) : IO (List (String × String)) := do
  let texts ← paths.mapM fun (path : String) ↦ do
    try
      let text ← IO.FS.readFile path
      return some (String.ofList (Simulation.plainPath path.toList), text)
    catch _ => return none
  return texts.filterMap id

def tell : Outcome → IO Unit
  | .usage => IO.eprintln programUsage
  | .help text => IO.print text
  | .report r => do
    IO.print r.output
    r.failure.forM fun f ↦ IO.eprintln f.text

def abortedCode : UInt32 := 101

def start (args : List String) : IO UInt32 := do
  let environment ← readVariables
  let files ← match CommandLine.read environment args with
    | .invocation i => readFiles (filesRead environment i)
    | _ => pure []
  let loopback := (Net.Address.parse? "127.0.0.1").toList.map Net.InterfaceEntry.address
  let machine := Simulation.machine environment files (some loopback)
  match ((machine.run args).run (Simulation.World.onWire ⟨none, [], []⟩)).1 with
  | some (some outcome) => do
    tell outcome
    return outcome.code.toUInt32
  | some none => do
    IO.eprintln "overflow when adding duration to instant"
    return abortedCode
  | none => do
    IO.eprintln "the run does not end"
    return 1

end SelfHealing.Program

def main (args : List String) : IO UInt32 := SelfHealing.Program.start args
