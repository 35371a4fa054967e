import SelfHealing.Net.Address.Reader

/-!
Reading the arguments of a command. Switches stand alone, settings have a value after them or after an equals sign,
and each may be given once. Words may follow, and once they have begun everything is a word.
-/

namespace SelfHealing.CommandLine

open Net Text

inductive Kind
  | path
  | count
  | address
  deriving DecidableEq, Repr

def maxCount : Nat := 0xFFFFFFFFFFFFFFFF

def count? (s : String) : Option Nat := unsigned? maxCount s.toList

def Kind.accepts : Kind → String → Bool
  | path, s => !s.isEmpty
  | count, s => (count? s).isSome
  | address, s => (Address.parse? s).isSome

structure Switch where
  name : String
  letter : Option Char
  purpose : String
  deriving DecidableEq, Repr

/-- A setting may be given by a variable of the environment too, and may have a value of its own. -/
structure Setting where
  name : String
  kind : Kind
  source : Option String
  standard : Option String
  required : Bool
  purpose : String
  deriving DecidableEq, Repr

inductive Parameter
  | switch (s : Switch)
  | setting (s : Setting)
  deriving DecidableEq, Repr

namespace Parameter

def switch? : Parameter → Option Switch
  | switch s => some s
  | setting _ => none

def setting? : Parameter → Option Setting
  | switch _ => none
  | setting s => some s

end Parameter

/-- The arguments of a command, and what its words are for if it has any; one at least has to be given. -/
structure Form where
  parameters : List Parameter
  words : Option String
  deriving DecidableEq, Repr

namespace Form

def switches (f : Form) : List Switch := f.parameters.filterMap Parameter.switch?

def settings (f : Form) : List Setting := f.parameters.filterMap Parameter.setting?

def switch? (f : Form) (name : String) : Option Switch := f.switches.find? (·.name = name)

def switchOf? (f : Form) (letter : Char) : Option Switch :=
  f.switches.find? (·.letter = some letter)

def setting? (f : Form) (name : String) : Option Setting := f.settings.find? (·.name = name)

end Form

/-- Why arguments are not carried out. -/
inductive Stop
  | help
  | usage
  deriving DecidableEq, Repr

/-- What has been given. The last setting may still lack its value, and is judged when something follows. -/
structure Given where
  switches : List String
  values : List (String × String)
  pending : Option (Setting × Option String)
  words : List String
  deriving Repr

namespace Given

def start : Given := ⟨[], [], none, []⟩

def isWaiting (g : Given) : Bool := g.pending.any (·.2.isNone)

def value? (g : Given) (name : String) : Option String := g.values.lookup name

def give (g : Given) (s : Setting) (value : String) : Except Stop Given :=
  if (g.value? s.name).isSome || !s.kind.accepts value then .error .usage
  else .ok { g with values := g.values ++ [(s.name, value)], pending := none }

def settle (g : Given) : Except Stop Given :=
  match g.pending with
  | none => .ok g
  | some (_, none) => .error .usage
  | some (s, some value) => g.give s value

def switchOn (g : Given) (s : Switch) : Except Stop Given := do
  let g ← g.settle
  if s.name ∈ g.switches then throw .usage
  return { g with switches := g.switches ++ [s.name] }

def await (g : Given) (s : Setting) (value : Option String) : Except Stop Given := do
  return { ← g.settle with pending := some (s, value) }

def askHelp {α : Type} (g : Given) : Except Stop α := do
  let _ ← g.settle
  throw .help

def long (f : Form) (g : Given) (name : String) (value : Option String) : Except Stop Given :=
  match f.switch? name, f.setting? name with
  | some s, _ => if value.isSome then .error .usage else g.switchOn s
  | none, some s => g.await s value
  | none, none => if name = "help" && value.isNone then g.askHelp else .error .usage

def short (f : Form) (g : Given) : List Char → Except Stop Given
  | [] => .ok g
  | c :: rest =>
    match f.switchOf? c with
    | some s => do (← g.switchOn s).short f rest
    | none => if c = 'h' then g.askHelp else .error .usage

end Given

inductive Argument
  | separator
  | long (name : String) (value : Option String)
  | short (letters : List Char)
  | word
  deriving DecidableEq, Repr

def Argument.ofString (s : String) : Argument :=
  match s.toList with
  | ['-', '-'] => separator
  | '-' :: '-' :: rest =>
    let name := rest.takeWhile (· ≠ '=')
    long (String.ofList name)
      (if name.length < rest.length then some (String.ofList (rest.drop (name.length + 1))) else none)
  | '-' :: c :: rest => short (c :: rest)
  | _ => word

def takeWords (f : Form) (g : Given) (words : List String) : Except Stop Given :=
  if f.words.isNone && !words.isEmpty then .error .usage else .ok { g with words := words }

def readArguments (f : Form) (commands : List String) (g : Given) :
    List String → Except Stop (Given × List String)
  | [] => .ok (g, [])
  | s :: rest => do
    let a := Argument.ofString s
    if g.isWaiting then
      if a = .word then
        readArguments f commands { g with pending := g.pending.map fun p ↦ (p.1, some s) } rest
      else throw .usage
    else if s ∈ commands then return (g, s :: rest)
    else
      match a with
      | .separator => return (← takeWords f g rest, [])
      | .long name value => readArguments f commands (← g.long f name value) rest
      | .short letters => readArguments f commands (← g.short f letters) rest
      | .word => return (← takeWords f g (s :: rest), [])

/-- The settings that were not given get their values from the environment, else their own. -/
def fill (environment : List (String × String)) (g : Given) : List Setting → Except Stop Given
  | [] => .ok g
  | s :: rest => do
    let value := (s.source.bind (List.lookup · environment)) <|> s.standard
    match g.value? s.name, value with
    | none, some value => fill environment (← g.give s value) rest
    | none, none => if s.required then throw .usage else fill environment g rest
    | some _, _ => fill environment g rest

def complete (f : Form) (environment : List (String × String)) (g : Given) : Except Stop Given := do
  let g ← fill environment (← g.settle) f.settings
  if f.words.isSome && g.words.isEmpty then throw .usage
  return g

end SelfHealing.CommandLine
