import SelfHealing.Shell.Arithmetic

/-!
Text written through escapes and formats.
-/

namespace SelfHealing.Shell

def octet (n : Nat) : Char := Char.ofNat (n % 256)

def octalValue (ds : Chars) : Nat := ds.foldl (fun n d ↦ n * 8 + (d.toNat - '0'.toNat)) 0

def isOctal (c : Char) : Bool := '0' ≤ c && c ≤ '7'

def plainEscape? : Char → Option Char
  | '\\' => some '\\'
  | 'a' => some '\x07'
  | 'b' => some '\x08'
  | 'e' => some '\x1b'
  | 'f' => some '\x0c'
  | 'n' => some '\n'
  | 'r' => some '\r'
  | 't' => some '\t'
  | 'v' => some '\x0b'
  | _ => none

/-- The character after a backslash and what follows it. A backslash that escapes nothing stands for itself. -/
def escape (cs : Chars) : Char × Chars :=
  match cs with
  | [] => ('\\', [])
  | c :: rest =>
    if isOctal c then
      let ds := (cs.take 3).takeWhile isOctal
      (octet (octalValue ds), cs.drop ds.length)
    else
      match plainEscape? c with
      | some d => (d, rest)
      | none => ('\\', cs)

/-- A text with its escapes replaced, and whether it ends before an escape that stops all output. -/
def unescape (fuel : Nat) (cs : Chars) : Chars × Bool :=
  match fuel, cs with
  | 0, _ => ([], false)
  | _, [] => ([], false)
  | _ + 1, '\\' :: 'c' :: _ => ([], true)
  | fuel + 1, '\\' :: '0' :: rest =>
    let ds := (rest.take 3).takeWhile isOctal
    let (text, stopped) := unescape fuel (rest.drop ds.length)
    (octet (octalValue ds) :: text, stopped)
  | fuel + 1, '\\' :: rest =>
    let (c, rest) := escape rest
    let (text, stopped) := unescape fuel rest
    (c :: text, stopped)
  | fuel + 1, c :: rest =>
    let (text, stopped) := unescape fuel rest
    (c :: text, stopped)

def echoText (args : List Chars) : Chars :=
  let (silent, args) := match args with
    | ['-', 'n'] :: rest => (true, rest)
    | _ => (false, args)
  let whole := joinWords args
  let (text, stopped) := unescape (whole.length + 1) whole
  if silent || stopped then text else text ++ ['\n']
where
  joinWords : List Chars → Chars
    | [] => []
    | [a] => a
    | a :: rest => a ++ ' ' :: joinWords rest

/-- How a value is laid out: flags, least width, and precision. -/
structure Layout where
  left : Bool
  zeros : Bool
  plus : Bool
  blank : Bool
  alternate : Bool
  width : Nat
  precision : Option Nat
  deriving Repr

namespace Layout

def plain : Layout := ⟨false, false, false, false, false, 0, none⟩

def pad (l : Layout) (text : Chars) : Chars :=
  let missing := List.replicate (l.width - text.length) ' '
  if l.left then text ++ missing else missing ++ text

def number (l : Layout) (sign digits : Chars) : Chars :=
  let digits := match l.precision with
    | some n => List.replicate (n - digits.length) '0' ++ digits
    | none => digits
  if l.zeros && !l.left && l.precision.isNone then
    sign ++ List.replicate (l.width - sign.length - digits.length) '0' ++ digits
  else l.pad (sign ++ digits)

def signed (l : Layout) (n : Int) : Chars :=
  let sign := if n < 0 then ['-'] else if l.plus then ['+'] else if l.blank then [' '] else []
  l.number sign (decimal n.natAbs)

def unsigned (l : Layout) (radix : Nat) (mark : Chars) (n : Int) : Chars :=
  l.number (if l.alternate && n ≠ 0 then mark else []) (Text.digits radix (Arithmetic.bits n))

def text (l : Layout) (cs : Chars) : Chars :=
  l.pad (match l.precision with
    | some n => cs.take n
    | none => cs)

end Layout

/-- The state of formatted printing: arguments left, whether any was asked for, the text so far, complaints, and
whether printing has stopped, by an escape or because the format is wrong. -/
structure Printing where
  args : List Chars
  consumed : Bool
  text : Chars
  complaints : List Chars
  stopped : Bool
  refused : Bool
  deriving Repr

namespace Printing

def put (p : Printing) (text : Chars) : Printing := { p with text := p.text ++ text }

def next (p : Printing) : Option Chars × Printing :=
  (p.args.head?, { p with args := p.args.tail, consumed := true })

def complain (p : Printing) (text : Chars) : Printing :=
  { p with complaints := p.complaints ++ [text] }

def refuse (p : Printing) (format : Chars) : Printing :=
  { p.complain (format ++ ": invalid directive".toList) with stopped := true, refused := true }

/-- The nearest number that 64 bits hold, with or without a sign. -/
def clamp (signed : Bool) (n : Int) : Int :=
  if signed then max (-0x8000000000000000) (min n 0x7FFFFFFFFFFFFFFF)
  else max (-0xFFFFFFFFFFFFFFFF) (min n 0xFFFFFFFFFFFFFFFF)

def number (p : Printing) (isSigned : Bool) : Int × Printing :=
  match p.next with
  | (none, p) => (0, p)
  | (some cs, p) =>
    let body := Arithmetic.skipBlanks cs
    let (negative, ds) := match body with
      | '-' :: ds => (true, ds)
      | '+' :: ds => (false, ds)
      | _ => (false, body)
    match body with
    | '\'' :: c :: _ | '"' :: c :: _ => (c.toNat, p)
    | _ =>
      match Arithmetic.takeNumeral? ds with
      | some (n, rest) =>
        let value : Int := if negative then -(n : Int) else n
        let clamped := clamp isSigned value
        let p := if rest.isEmpty then p else p.complain (cs ++ ": not completely converted".toList)
        (clamped, if clamped = value then p
          else p.complain (cs ++ ": Numerical result out of range".toList))
      | none => (0, p.complain (cs ++ ": expected numeric value".toList))

def flags (l : Layout) : Chars → Layout × Chars
  | '-' :: rest => flags { l with left := true } rest
  | '0' :: rest => flags { l with zeros := true } rest
  | '+' :: rest => flags { l with plus := true } rest
  | ' ' :: rest => flags { l with blank := true } rest
  | '#' :: rest => flags { l with alternate := true } rest
  | rest => (l, rest)

def size (p : Printing) (cs : Chars) : Nat × Printing × Chars :=
  match cs with
  | '*' :: rest =>
    let (n, p) := p.number true
    (n.toNat, p, rest)
  | _ =>
    let ds := cs.takeWhile Char.isDigit
    ((Text.natural? 10 ds).getD 0, p, cs.drop ds.length)

def directive (p : Printing) (whole : Chars) : Printing × Chars :=
  let (l, cs) := flags .plain whole
  let (width, p, cs) := p.size cs
  let (precision, p, cs) := match cs with
    | '.' :: rest =>
      let (n, p, rest) := p.size rest
      (some n, p, rest)
    | _ => (none, p, cs)
  let l := { l with width := width, precision := precision }
  match cs with
  | [] => (p.refuse ('%' :: whole), [])
  | c :: rest =>
    let numeric := fun (isSigned : Bool) (spell : Int → Chars) ↦
      let (n, p) := p.number isSigned
      (p.put (spell n), rest)
    match c with
    | 'd' | 'i' => numeric true l.signed
    | 'u' => numeric false (l.unsigned 10 [])
    | 'o' => numeric false (l.unsigned 8 ['0'])
    | 'x' => numeric false (l.unsigned 16 ['0', 'x'])
    | 'X' => numeric false fun n ↦ (l.unsigned 16 ['0', 'X'] n).map Char.toUpper
    | 's' =>
      let (arg, p) := p.next
      (p.put (l.text (arg.getD [])), rest)
    | 'c' =>
      let (arg, p) := p.next
      (p.put (l.pad ((arg.getD []).take 1)), rest)
    | 'b' =>
      let (arg, p) := p.next
      let arg := arg.getD []
      let (text, stopped) := unescape (arg.length + 1) arg
      ({ p.put (l.text text) with stopped := stopped }, rest)
    | _ => (p.refuse ('%' :: whole.take (whole.length - rest.length)), [])

def sweep (fuel : Nat) (p : Printing) (format : Chars) : Printing :=
  match fuel, format with
  | 0, _ => p
  | _, [] => p
  | _ + 1, ['%'] => p.directive [] |>.1
  | fuel + 1, '%' :: '%' :: rest => sweep fuel (p.put ['%']) rest
  | fuel + 1, '%' :: rest =>
    let (p, rest) := p.directive rest
    if p.stopped then p else sweep fuel p rest
  | fuel + 1, '\\' :: rest =>
    let (c, rest) := escape rest
    sweep fuel (p.put [c]) rest
  | fuel + 1, c :: rest => sweep fuel (p.put [c]) rest

/-- The format is used again as long as it takes arguments and some are left. -/
def run (fuel : Nat) (p : Printing) (format : Chars) : Printing :=
  match fuel with
  | 0 => p
  | fuel + 1 =>
    let p := sweep (format.length + 1) { p with consumed := false } format
    if p.stopped || !p.consumed || p.args.isEmpty then p else run fuel p format

end Printing

def formatted (format : Chars) (args : List Chars) : Printing :=
  Printing.run (args.length + 1) ⟨args, false, [], [], false, false⟩ format

end SelfHealing.Shell
