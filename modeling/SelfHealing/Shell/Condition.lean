import SelfHealing.Shell.Arithmetic

/-!
Conditions on texts, numbers and files.
-/

namespace SelfHealing.Shell

inductive ConditionError
  | illegalNumber (text : Chars)
  | unexpectedOperator (text : Chars)
  | argumentExpected
  deriving DecidableEq, Repr

def ConditionError.message : ConditionError → Chars
  | illegalNumber text => "Illegal number: ".toList ++ text
  | unexpectedOperator text => text ++ ": unexpected operator".toList
  | argumentExpected => "argument expected".toList

def standardDirectories : List String :=
  ["/", "/bin", "/dev", "/etc", "/home", "/lib", "/proc", "/root", "/run", "/sbin", "/tmp", "/usr",
    "/usr/bin", "/usr/lib", "/usr/local", "/usr/sbin", "/var", "/var/log", "/var/tmp"]

def isDirectory (path : Chars) : Bool := String.ofList path ∈ standardDirectories

def nullDevice : Chars := "/dev/null".toList

namespace Condition

def isFile (w : World) (path : Chars) : Bool :=
  (fileText w.files path).isSome || path = "/bin/sh".toList || path = "/etc/passwd".toList

def exists_ (w : World) (path : Chars) : Bool :=
  isDirectory path || isFile w path || path = nullDevice

def integer (cs : Chars) : Except ConditionError Int :=
  let body := Text.dropTrailing isSpace (Arithmetic.skipBlanks cs)
  let (negative, ds) := match body with
    | '-' :: ds => (true, ds)
    | '+' :: ds => (false, ds)
    | _ => (false, body)
  match Text.natural? 10 ds with
  | some n => .ok (if negative then -n else n)
  | none => .error (.illegalNumber cs)

def unary? (w : World) (op : Chars) : Option (Chars → Except ConditionError Bool) :=
  match String.ofList op with
  | "-n" => some fun a ↦ .ok !a.isEmpty
  | "-z" => some fun a ↦ .ok a.isEmpty
  | "-e" | "-r" | "-w" => some fun a ↦ .ok (exists_ w a)
  | "-f" => some fun a ↦ .ok (isFile w a)
  | "-d" => some fun a ↦ .ok (isDirectory a)
  | "-x" => some fun a ↦ .ok (isDirectory a || a = "/bin/sh".toList)
  | "-s" => some fun a ↦ .ok (!((fileText w.files a).getD []).isEmpty)
  | "-t" | "-h" | "-L" | "-p" | "-S" | "-b" | "-u" | "-g" | "-k" => some fun _ ↦ .ok false
  | "-c" => some fun a ↦ .ok (a = nullDevice)
  | _ => none

def binary? (op : Chars) : Option (Chars → Chars → Except ConditionError Bool) :=
  let compare (f : Int → Int → Bool) := fun a b ↦ do return f (← integer a) (← integer b)
  match String.ofList op with
  | "=" => some fun a b ↦ .ok (a = b)
  | "!=" => some fun a b ↦ .ok (a ≠ b)
  | "<" => some fun a b ↦ .ok (a < b)
  | ">" => some fun a b ↦ .ok (b < a)
  | "-eq" => some (compare (· = ·))
  | "-ne" => some (compare (· ≠ ·))
  | "-lt" => some (compare (· < ·))
  | "-le" => some (compare (· ≤ ·))
  | "-gt" => some (compare (· > ·))
  | "-ge" => some (compare (· ≥ ·))
  | _ => none

abbrev Reader := StateT (List Chars) (Except ConditionError)

mutual

def alternatives (w : World) (fuel : Nat) : Reader Bool := do
  match fuel with
  | 0 => throw .argumentExpected
  | fuel + 1 =>
    let a ← conjunction w fuel
    match ← get with
    | ['-', 'o'] :: rest =>
      set rest
      let b ← alternatives w fuel
      return a || b
    | _ => return a

def conjunction (w : World) (fuel : Nat) : Reader Bool := do
  match fuel with
  | 0 => throw .argumentExpected
  | fuel + 1 =>
    let a ← primary w fuel
    match ← get with
    | ['-', 'a'] :: rest =>
      set rest
      let b ← conjunction w fuel
      return a && b
    | _ => return a

/-- A binary operator in the second place wins over all else. -/
def primary (w : World) (fuel : Nat) : Reader Bool := do
  match fuel with
  | 0 => throw .argumentExpected
  | fuel + 1 =>
    match ← get with
    | [] => throw .argumentExpected
    | [a] => set ([] : List Chars); return !a.isEmpty
    | a :: op :: rest =>
      match binary? op, rest with
      | some f, b :: rest => set rest; f a b
      | _, _ =>
        if a = ['!'] then
          set (op :: rest)
          return !(← primary w fuel)
        else if a = ['('] then
          set (op :: rest)
          let v ← alternatives w fuel
          match ← get with
          | [')'] :: rest => set rest; return v
          | _ => throw .argumentExpected
        else
          match unary? w a with
          | some f => set rest; f op
          | none => set (op :: rest); return !a.isEmpty

end

/-- The value of a condition; the empty one is false. -/
def eval (w : World) (args : List Chars) : Except ConditionError Bool := do
  if args.isEmpty then return false
  let (v, rest) ← (alternatives w (4 * args.length + 8)).run args
  match rest with
  | [] => return v
  | text :: _ => throw (.unexpectedOperator text)

end Condition

end SelfHealing.Shell
