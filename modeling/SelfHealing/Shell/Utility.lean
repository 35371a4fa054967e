import SelfHealing.Shell.Builtin

/-!
Programs that a shell finds on its search path.
-/

namespace SelfHealing.Shell

namespace Utility

open Builtin (text)

def fail (name message : Chars) (n : Nat) : Eval Nat := do
  report (name ++ text ": " ++ message)
  return n

def misuse (name : String) (message : Chars) : Eval Nat := do
  report (text name ++ text ": " ++ message)
  report (text ("Try '" ++ name ++ " --help' for more information."))
  return 1

def takeInput : Eval Chars := do
  let all := (← world).input
  modifyWorld ({ · with input := [] })
  return all

/-- The text of a file, or of the input for a dash. -/
def readFile? (path : Chars) : Eval (Option Chars) := do
  if path = ['-'] then return some (← takeInput)
  if path = nullDevice then return some []
  return fileText (← world).files (← Builtin.absolute path)

def contents (name : Chars) : List Chars → Eval (Chars × Nat)
  | [] => return ([], 0)
  | path :: rest => do
    match ← readFile? path with
    | some here =>
      let (more, n) ← contents name rest
      return (here ++ more, n)
    | none =>
      report (name ++ text ": " ++ path ++ text ": No such file or directory")
      let (more, _) ← contents name rest
      return (more, 1)

def sources (name : Chars) (paths : List Chars) : Eval (Chars × Nat) :=
  contents name (if paths.isEmpty then [['-']] else paths)

def lines (cs : Chars) : List Chars :=
  match cs.splitOn '\n' |>.reverse with
  | [] :: rest => rest.reverse
  | all => all.reverse

def unlines (ls : List Chars) : Chars := ls.flatMap (· ++ ['\n'])

def isFlag (a : Chars) : Bool := a.head? = some '-' && a.length > 1

def flags (args : List Chars) : Chars := (args.filter isFlag).flatMap (·.drop 1)

def operands (args : List Chars) : List Chars := args.filter (!isFlag ·)

def filter (name : Chars) (paths : List Chars) (f : Chars → Chars) : Eval Nat := do
  let (all, n) ← sources name paths
  print (f all)
  return n

def echo (args : List Chars) : Eval Nat := do
  let isOption := fun (a : Chars) ↦ isFlag a && (a.drop 1).all (· ∈ ['n', 'e', 'E'])
  let options := (args.takeWhile isOption).flatMap (·.drop 1)
  let words := joinWith [' '] (args.dropWhile isOption)
  let escapes := (options.filter (· ≠ 'n')).getLast? = some 'e'
  let (body, stopped) := if escapes then unescape (words.length + 1) words else (words, false)
  print (if stopped || 'n' ∈ options then body else body ++ ['\n'])
  return 0

def integer? (cs : Chars) : Option Int :=
  match cs with
  | '-' :: ds => (Text.natural? 10 ds).map fun n ↦ -(n : Int)
  | '+' :: ds => (Text.natural? 10 ds).map Int.ofNat
  | ds => (Text.natural? 10 ds).map Int.ofNat

def numbers (first step last : Int) : List Int :=
  if step = 0 then []
  else
    let count := (last - first).fdiv step + 1
    (List.range count.toNat).map fun (k : Nat) ↦ first + step * k

def seq (args : List Chars) : Eval Nat := do
  let (separator, args) := match args with
    | ['-', 's'] :: s :: rest => (s, rest)
    | ('-' :: 's' :: s) :: rest => (s, rest)
    | _ => (['\n'], args)
  match args.mapM integer? with
  | none =>
    let bad := (args.find? fun a ↦ (integer? a).isNone).getD []
    misuse "seq" (text "invalid floating point argument: '" ++ bad ++ ['\''])
  | some bounds =>
    let list? := match bounds with
      | [last] => some (numbers 1 1 last)
      | [first, last] => some (numbers first 1 last)
      | [first, step, last] => some (numbers first step last)
      | _ => none
    match list? with
    | none => misuse "seq" (text "missing operand")
    | some ns =>
      if !ns.isEmpty then print (joinWith separator (ns.map Arithmetic.showInt) ++ ['\n'])
      return 0

def unitSeconds? : Chars → Option Nat
  | [] | ['s'] => some 1
  | ['m'] => some 60
  | ['h'] => some 3600
  | ['d'] => some 86400
  | _ => none

/-- A length of time in nanoseconds: seconds with a fraction, or another unit. -/
def nanoseconds? (cs : Chars) : Option Nat := do
  let whole := cs.takeWhile Char.isDigit
  let rest := cs.drop whole.length
  let fraction := match rest with
    | '.' :: ds => ds.takeWhile Char.isDigit
    | _ => []
  let unit := if rest.head? = some '.' then rest.drop (fraction.length + 1) else rest
  let digits := whole ++ fraction
  let value ← Text.natural? 10 digits
  return value * 1000000000 * (← unitSeconds? unit) / Nat.pow 10 fraction.length

def sleep (args : List Chars) : Eval Nat := do
  match args.mapM nanoseconds? with
  | some (n :: more) =>
    pass (more.foldl (· + ·) n)
    return 0
  | some [] => misuse "sleep" (text "missing operand")
  | none =>
    if args = [text "infinity"] || args = [text "inf"] then throw .endless
    else
      let bad := (args.find? fun a ↦ (nanoseconds? a).isNone).getD []
      misuse "sleep" (text "invalid time interval '" ++ bad ++ ['\''])

/-- The characters of a set: escapes, ranges and classes. -/
def charSet (fuel : Nat) (cs : Chars) : Chars :=
  let all := (List.range 256).map Char.ofNat
  match fuel, cs with
  | 0, _ => []
  | _, [] => []
  | fuel + 1, '[' :: ':' :: rest =>
    let name := rest.takeWhile (· ≠ ':')
    all.filter (classHolds (String.ofList name)) ++ charSet fuel (rest.drop (name.length + 2))
  | fuel + 1, '\\' :: rest =>
    let (c, rest) := escape rest
    c :: charSet fuel rest
  | fuel + 1, a :: '-' :: b :: rest =>
    (all.filter fun c ↦ a ≤ c && c ≤ b) ++ charSet fuel rest
  | fuel + 1, c :: rest => c :: charSet fuel rest

def squeeze (member : Char → Bool) : Chars → Chars
  | a :: b :: rest => if a = b && member a then squeeze member (b :: rest) else a :: squeeze member (b :: rest)
  | cs => cs

def tr (args : List Chars) : Eval Nat := do
  let options := (args.takeWhile isFlag).flatMap (·.drop 1)
  let sets := (args.dropWhile isFlag).map fun s ↦ charSet (s.length + 1) s
  let complemented := 'c' ∈ options || 'C' ∈ options
  let first := sets.headD []
  let member := fun c ↦ (c ∈ first) != complemented
  let all ← takeInput
  let mapped := match sets[1]? with
    | some second =>
      all.map fun c ↦
        if !member c then c
        else if complemented then second.getLast?.getD c
        else (second[first.idxOf c]?.or second.getLast?).getD c
    | none => all
  let result := if 'd' ∈ options then all.filter (!member ·) else mapped
  let squeezed := (sets[1]?).getD first
  print (if 's' ∈ options then squeeze (· ∈ squeezed) result else result)
  return 0

/-- The count that options of `head` and `tail` give, whether it is of octets, and the operands. -/
def amount (standard : Chars) : List Chars → Chars × Bool × List Chars
  | ['-', 'n'] :: n :: rest => (n, false, rest)
  | ['-', 'c'] :: n :: rest => (n, true, rest)
  | ('-' :: 'n' :: n) :: rest => (n, false, rest)
  | ('-' :: 'c' :: n) :: rest => (n, true, rest)
  | ('-' :: n@(d :: _)) :: rest => if d.isDigit then (n, false, rest) else (standard, false, rest)
  | args => (standard, false, args)

def head (args : List Chars) : Eval Nat := do
  let (n, octets, paths) := amount ['1', '0'] args
  let count := (Text.natural? 10 n).getD 10
  filter (text "head") paths fun all ↦
    if octets then all.take count
    else
      let kept := (lines all).take count
      let whole := unlines kept
      if whole.length > all.length then all else whole

def tail (args : List Chars) : Eval Nat := do
  let (n, octets, paths) := amount ['1', '0'] args
  let fromStart := n.head? = some '+'
  let count := (Text.natural? 10 (if fromStart then n.drop 1 else n)).getD 10
  filter (text "tail") paths fun all ↦
    let starts := if octets then all.map ([·])
      else
        let ls := (lines all).map (· ++ ['\n'])
        if all.getLast? = some '\n' then ls else ls.dropLast ++ (ls.getLast?.map List.dropLast).toList
    (if fromStart then starts.drop (count - 1) else starts.drop (starts.length - count)).flatten

def wordCount (cs : Chars) : Nat :=
  let isBlank := classHolds "space"
  ((cs.foldl (fun (n, inside) c ↦ if isBlank c then (n, false) else (if inside then n else n + 1, true))
    (0, false)) : Nat × Bool).1

def wc (args : List Chars) : Eval Nat := do
  let options := flags args
  let paths := operands args
  let (all, n) ← sources (text "wc") paths
  let counts := [('l', all.count '\n'), ('w', wordCount all), ('c', all.length), ('m', all.length)]
  let asked := if options.isEmpty then ['l', 'w', 'c'] else options
  let shown := (counts.filter fun (c, _) ↦ c ∈ asked).map fun (_, n) ↦ decimal n
  let cell := fun (cs : Chars) ↦ List.replicate (7 - cs.length) ' ' ++ cs
  let row := match shown with
    | [one] => one
    | many => joinWith [' '] (many.map cell)
  let label := match paths with
    | [path] => ' ' :: path
    | _ => []
  print (row ++ label ++ ['\n'])
  return n

def lessNumerically (a b : Chars) : Bool :=
  let value := fun (cs : Chars) ↦
    let cs := Arithmetic.skipBlanks cs
    let (negative, ds) := match cs with
      | '-' :: ds => (true, ds)
      | _ => (false, cs)
    let n : Int := (Text.natural? 10 (ds.takeWhile Char.isDigit)).getD 0
    if negative then -n else n
  value a < value b || (value a = value b && !(b < a))

def sort (args : List Chars) : Eval Nat := do
  let options := flags args
  let le := fun (a b : Chars) ↦ if 'n' ∈ options then lessNumerically a b else !(b < a)
  let le := if 'r' ∈ options then fun a b ↦ le b a else le
  filter (text "sort") (operands args) fun all ↦
    let sorted := (lines all).mergeSort le
    unlines (if 'u' ∈ options then sorted.eraseDups else sorted)

def runs : List Chars → List (Chars × Nat)
  | [] => []
  | l :: rest =>
    match runs rest with
    | (m, n) :: more => if l = m then (m, n + 1) :: more else (l, 1) :: (m, n) :: more
    | [] => [(l, 1)]

def uniq (args : List Chars) : Eval Nat :=
  let counted := 'c' ∈ flags args
  filter (text "uniq") (operands args) fun all ↦
    unlines <| (runs (lines all)).map fun (l, n) ↦
      if counted then
        let n := decimal n
        List.replicate (7 - n.length) ' ' ++ n ++ ' ' :: l
      else l

def basename (args : List Chars) : Eval Nat := do
  match args with
  | [] => misuse "basename" (text "missing operand")
  | path :: more =>
    let parts := (path.splitOn '/').filter (!·.isEmpty)
    let last := (parts.getLast?).getD (path.take 1)
    let ending := more.headD []
    let kept := last.take (last.length - ending.length)
    print ((if ending ≠ last && kept ++ ending = last then kept else last) ++ ['\n'])
    return 0

def dirname (args : List Chars) : Eval Nat := do
  match args with
  | [] => misuse "dirname" (text "missing operand")
  | path :: _ =>
    let body := Text.dropTrailing (· = '/') path
    let parent := body.reverse.dropWhile (· ≠ '/') |>.reverse
    let parent := Text.dropTrailing (· = '/') parent
    let shown :=
      if body.isEmpty then ['/'] else if '/' ∉ body then ['.'] else if parent.isEmpty then ['/'] else parent
    print (shown ++ ['\n'])
    return 0

def tee (args : List Chars) : Eval Nat := do
  let all ← takeInput
  for path in operands args do
    let path ← Builtin.absolute path
    modifyWorld fun w ↦ { w with files := putFile path all w.files }
  print all
  return 0

def printenv : List Chars → Eval Nat
  | [] => do
    for v in (← scope).bindings do
      if v.exported then print (v.name.toList ++ '=' :: v.value ++ ['\n'])
    return 0
  | name :: _ => do
    match (← scope).bindings.find? fun v ↦ v.exported && v.name.toList = name with
    | some v => print (v.value ++ ['\n']); return 0
    | none => return 1

def lookup? (name : String) : Option (List Chars → Eval Nat) :=
  match name with
  | "true" => some fun _ ↦ return 0
  | "false" => some fun _ ↦ return 1
  | "echo" => some echo
  | "printf" => some Builtin.printf
  | "test" => some (Builtin.test (text "test"))
  | "[" => some Builtin.bracket
  | "pwd" => some fun _ ↦ Builtin.pwd
  | "cat" => some fun args ↦ filter (text "cat") (args.filter (· ≠ text "-u")) id
  | "seq" => some seq
  | "sleep" => some sleep
  | "tr" => some tr
  | "head" => some head
  | "tail" => some tail
  | "wc" => some wc
  | "sort" => some sort
  | "uniq" => some uniq
  | "rev" => some fun args ↦ filter (text "rev") args fun all ↦ unlines ((lines all).map List.reverse)
  | "tac" => some fun args ↦ filter (text "tac") args fun all ↦ unlines (lines all).reverse
  | "basename" => some basename
  | "dirname" => some dirname
  | "tee" => some tee
  | "printenv" => some printenv
  | "sync" => some fun _ ↦ return 0
  | _ => none

/-- Programs that run a command of their own. -/
def launchers : List String := ["sh", "dash", "env", "nohup", "timeout"]

def places : List Chars := [text "/bin", text "/usr/bin"]

def standardPath : Chars := text "/usr/local/sbin:/usr/local/bin:/usr/sbin:/usr/bin:/sbin:/bin"

def isProgram (name : String) : Bool := (lookup? name).isSome || name ∈ launchers

def program? (word : Chars) : Eval (Option String) := do
  let parts := word.splitOn '/'
  let name := String.ofList (parts.getLast?.getD [])
  let here ← if parts.length < 2 then do
      let path := (← valueOf? "PATH").getD standardPath
      pure ((path.splitOn ':').any places.contains)
    else do pure (places.contains (joinWith ['/'] parts.dropLast))
  return if here && isProgram name then some name else none

end Utility

end SelfHealing.Shell
