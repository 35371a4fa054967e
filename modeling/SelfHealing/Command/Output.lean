import SelfHealing.Text.Line

/-!
The output of a command: the text as a whole, and its lines as they are shown while it runs.
-/

namespace SelfHealing.Command

open Text

structure Output where
  status : Int
  text : String
  deriving DecidableEq, Repr

structure Transcript where
  text : String
  lines : List String
  deriving DecidableEq, Repr

namespace Transcript

def empty : Transcript := ⟨"", []⟩

/-- One line as it was read, its terminator included. It is decoded by itself. -/
def push (t : Transcript) (line : Octets) : Transcript :=
  if line.isEmpty then t
  else
    let text := decodeLossy line
    ⟨t.text ++ text, t.lines ++ [chomp text]⟩

def pushAll (t : Transcript) (lines : List Octets) : Transcript :=
  lines.foldl push t

end Transcript

end SelfHealing.Command
