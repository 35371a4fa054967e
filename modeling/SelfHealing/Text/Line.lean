import SelfHealing.Text.Blank
import SelfHealing.Text.Utf8

/-!
Lines. Octets are split after every newline, so that the pieces join to the whole; a text can also be
listed by lines without their terminators, or have its terminators replaced.
-/

namespace SelfHealing.Text

def newline : UInt8 := 0x0a

def takeLine : Octets → Octets × Octets
  | [] => ([], [])
  | b :: rest =>
    if b = newline then ([b], rest)
    else
      let (line, after) := takeLine rest
      (b :: line, after)

theorem takeLine_append (bytes : Octets) : (takeLine bytes).1 ++ (takeLine bytes).2 = bytes := by
  induction bytes with
  | nil => rfl
  | cons b rest ih =>
    unfold takeLine
    split
    · rfl
    · simpa using ih

theorem length_takeLine_snd_lt (b : UInt8) (rest : Octets) :
    (takeLine (b :: rest)).2.length < (b :: rest).length := by
  have h := congrArg List.length (takeLine_append (b :: rest))
  have hpos : 0 < (takeLine (b :: rest)).1.length := by
    unfold takeLine
    split <;> simp
  simp only [List.length_append] at h
  omega

theorem length_takeLine_snd_lt_of_mem {b : UInt8} {bytes : Octets} (h : b ∈ bytes) :
    (takeLine bytes).2.length < bytes.length := by
  cases bytes with
  | nil => cases h
  | cons a rest => exact length_takeLine_snd_lt a rest

def splitLines : Octets → List Octets
  | [] => []
  | b :: rest => (takeLine (b :: rest)).1 :: splitLines (takeLine (b :: rest)).2
termination_by bytes => bytes.length
decreasing_by exact length_takeLine_snd_lt b rest

/-- The lines of a text without their terminators (a newline, or a carriage return and a newline);
an empty last line is no line. -/
def linesOf : List Char → List Char → List (List Char)
  | acc, [] => if acc.isEmpty then [] else [acc.reverse]
  | acc, '\n' :: rest =>
    let line := match acc with
      | '\r' :: before => before.reverse
      | _ => acc.reverse
    line :: linesOf [] rest
  | acc, c :: rest => linesOf (c :: acc) rest

def lines (s : String) : List String :=
  (linesOf [] s.toList).map String.ofList

def replacePairs (separator : List Char) : List Char → List Char
  | '\r' :: '\n' :: rest => separator ++ replacePairs separator rest
  | c :: rest => c :: replacePairs separator rest
  | [] => []

def replaceNewlines (separator : List Char) (cs : List Char) : List Char :=
  cs.flatMap fun c ↦ if c = '\n' then separator else [c]

/-- Line terminators replaced in two sweeps: first every carriage return with its newline, then every newline
that the text holds by then. -/
def joinLines (separator s : String) : String :=
  let separator := separator.toList
  String.ofList (replaceNewlines separator (replacePairs separator s.toList))

/-- A line as it is shown: no newline or carriage return at its end. -/
def chomp (s : String) : String :=
  String.ofList (dropTrailing (fun c ↦ c = '\n' || c = '\r') s.toList)

end SelfHealing.Text
