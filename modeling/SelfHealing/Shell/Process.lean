import SelfHealing.Shell.Evaluation

/-!
A shell as a child process: what it writes and when, and how it ends. Its input is empty.
-/

namespace SelfHealing.Shell

open SelfHealing.Command Time

def startDelay : Nat := 1000000

def evaluationFuel : Nat := 20000

def shellName : Chars := "/bin/sh".toList

def initialScope (environment : List Binding) : Scope :=
  let base : Scope :=
    { bindings := []
      functions := []
      name := shellName
      arguments := []
      status := 0
      directory := ['/']
      mask := 0o022
      constants := []
      locals := none
      stopsOnFailure := false
      refusesUnset := false
      traces := false
      traps := []
      channels := [(1, .pipe .out), (2, .pipe .err)]
      loops := 0
      line := 1
      substituted := 0 }
  let inherited := (base.assignExported "PATH" Utility.standardPath).assignExported "PWD" ['/']
  environment.foldl (fun s b ↦ s.assignExported b.key (ofString b.value)) inherited

def initialState (environment : List Binding) : State :=
  ⟨initialScope environment, ⟨startDelay, 0, [], false, [], [], [], []⟩⟩

/-- The evaluation of a script from its start: how it stopped, and the state then. -/
def evaluate (command : String) (environment : List Binding) : Except Stop Unit × State :=
  withExitTrap evaluationFuel (evalText evaluationFuel false (ofString command)) (initialState environment)

/-- Events with their delays, from events with their moments. -/
def withDelays (before : Nat) : List (Nat × ChildEvent) → List (Timed ChildEvent)
  | [] => []
  | (time, event) :: rest => ⟨⟨time - before⟩, event⟩ :: withDelays time rest

/-- The exit of a shell at the end of its own commands; the pipes close when background commands have ended too. -/
def endingOf (stop : Except Stop Unit) (s : State) : List (Nat × ChildEvent) :=
  let closing := max s.world.time s.world.lastJobEnd
  let endWith := fun status ↦
    [(s.world.time, .exited status), (closing, .closed .out), (closing, .closed .err)]
  match stop with
  | .ok () => endWith (some s.scope.status)
  | .error (.exit n) => endWith (some n)
  | .error (.killed _) => endWith none
  | .error .endless => []
  | .error _ => endWith (some s.scope.status)

def child (command : String) (environment : List Binding) : List (Timed ChildEvent) :=
  let (stop, s) := evaluate command environment
  let writes := s.world.writes.reverse.map fun w ↦ (w.time, ChildEvent.wrote w.pipe (toOctets w.text))
  let events := (writes ++ endingOf stop s).mergeSort fun a b ↦ a.1 ≤ b.1
  withDelays 0 events

end SelfHealing.Shell
