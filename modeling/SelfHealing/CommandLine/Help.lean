import SelfHealing.CommandLine.Invocation

/-!
The help text: what the program or a verb is for, how it is called, and what may be given.
-/

namespace SelfHealing.CommandLine

def programName : String := "remedy"

def programPurpose : String := "Repair pods and host services flagged by monitoring rules"

def padTo (width : Nat) (s : String) : String := s ++ "".pushn ' ' (width - s.length)

def placeholder (name : String) : String :=
  String.ofList (name.toList.map fun c ↦ if c = '-' then '_' else c.toUpper)

def Setting.usage (s : Setting) : String := s!"--{s.name} <{placeholder s.name}>"

structure HelpItem where
  head : String
  text : String
  deriving DecidableEq, Repr

def Switch.item (s : Switch) : HelpItem :=
  let letter := match s.letter with
    | some c => s!"-{c}, "
    | none => "    "
  ⟨s!"{letter}--{s.name}", s.purpose⟩

def Setting.item (environment : List (String × String)) (s : Setting) : HelpItem :=
  let source := s.source.toList.map fun name ↦
    let value := (List.lookup name environment).getD ""
    s!"[env: {name}={value}]"
  let standard := s.standard.toList.map fun value ↦ s!"[default: {value}]"
  ⟨s!"    {s.usage}", " ".intercalate (s.purpose :: source ++ standard)⟩

def helpItem : HelpItem := ⟨"-h, --help", "Print help"⟩

def Parameter.item (environment : List (String × String)) : Parameter → HelpItem
  | switch s => s.item
  | setting s => s.item environment

def Form.items (f : Form) (environment : List (String × String)) : List HelpItem :=
  f.parameters.map (Parameter.item environment) ++ [helpItem]

def lineWidth : Nat := 100

def widest (items : List HelpItem) : Nat := items.foldl (fun w i ↦ max w i.head.length) 0

/-- The heads have to leave three fifths of a line, unless all texts fit anyway. -/
def needsOwnLines (items : List HelpItem) : Bool :=
  let taken := widest items + 8
  2 * lineWidth < 5 * taken && items.any fun i ↦ lineWidth < taken + i.text.length

def showItems (items : List HelpItem) : String :=
  String.join <| items.map fun i ↦
    if needsOwnLines items then s!"  {i.head}\n          {i.text}\n"
    else s!"  {padTo (widest items) i.head}  {i.text}\n"

def helpPurpose : String := "Print this message or the help of the given subcommand(s)"

def listVerbs : String :=
  String.join <| (Verb.all.map fun v ↦ (v.name, v.purpose)) ++
      [(helpName, helpPurpose)] |>.map
    fun (name, purpose) ↦ s!"  {padTo 4 name}  {purpose}\n"

def programUsage : String := s!"Usage: {programName} [OPTIONS] <COMMAND>"

def programHelp (environment : List (String × String)) : String :=
  s!"{programPurpose}\n\n{programUsage}\n\nCommands:\n{listVerbs}\n" ++
    s!"Options:\n{showItems (globalForm.items environment)}"

def Verb.usage (v : Verb) : String :=
  let f := v.form
  let optional := if f.settings.any (!·.required) then ["[OPTIONS]"] else []
  let required := (f.settings.filter (·.required)).map Setting.usage
  let words := f.words.toList.map fun _ ↦ "<COMMAND>..."
  " ".intercalate ([programName, v.name] ++ optional ++ required ++ words)

def Verb.help (environment : List (String × String)) (v : Verb) : String :=
  let words := match v.form.words with
    | some purpose => s!"Arguments:\n  <COMMAND>...  {purpose}\n\n"
    | none => ""
  s!"{v.purpose}\n\nUsage: {v.usage}\n\n{words}" ++
    s!"Options:\n{showItems (v.form.items environment)}"

def helpHelp : String :=
  s!"{helpPurpose}\n\nUsage: {programName} {helpName} [COMMAND]...\n\n" ++
    "Arguments:\n  [COMMAND]...  Print help for the subcommand(s)\n"

def helpText (environment : List (String × String)) : Topic → String
  | .program => programHelp environment
  | .verb v => v.help environment
  | .help => helpHelp

end SelfHealing.CommandLine
