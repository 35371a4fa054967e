import SelfHealing.Error

/-!
What the program reports: its output, and what went wrong with the causes behind it.
-/

namespace SelfHealing.Program

open Net

inductive Failure
  | configuration (path : String) (cause : Error)
  | resultsMissing (path : String)
  | resultsMalformed (path : String)
  | client (cause : Error)
  | recovery (cause : Error)
  | unreachable (failed total : Nat)
  | command (host : Address) (cause : Error)
  deriving DecidableEq, Repr

namespace Failure

def headline : Failure → String
  | configuration path _ => s!"Failed to load config {path}"
  | resultsMissing path => s!"Failed to read results {path}"
  | resultsMalformed path => s!"Failed to parse results {path}"
  | client _ => "Failed to create Kubernetes client"
  | recovery _ => "Recovery pass failed"
  | unreachable failed total => s!"{failed} of {total} hosts unreachable"
  | command host _ => s!"Command failed on {host}"

def cause? : Failure → Option Error
  | configuration _ cause | client cause | recovery cause | command _ cause => some cause
  | resultsMissing _ | resultsMalformed _ | unreachable .. => none

def causes (f : Failure) : List Error := (f.cause?.map Error.chain).getD []

/-- The headline, and below it the causes, numbered when there are several. -/
def text (f : Failure) : String :=
  let lines := match f.causes.map Error.message with
    | [] => []
    | [one] => ["", "Caused by:", s!"    {one}"]
    | many => "" :: "Caused by:" :: many.zipIdx.map fun (told, k) ↦ s!"    {k}: {told}"
  "\n".intercalate (s!"Error: {f.headline}" :: lines)

end Failure

structure Report where
  output : String
  failure : Option Failure
  deriving DecidableEq, Repr

namespace Report

def ofExcept : Except Failure String → Report
  | .ok output => ⟨output, none⟩
  | .error f => ⟨"", some f⟩

end Report

end SelfHealing.Program
