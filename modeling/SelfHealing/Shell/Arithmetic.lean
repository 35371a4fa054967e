import SelfHealing.Shell.State

/-!
Arithmetic on signed 64-bit integers, with variables.
-/

namespace SelfHealing.Shell

inductive Arithmetic
  | number (n : Int)
  | var (name : String)
  | assign (name : String) (op : Option String) (value : Arithmetic)
  | unary (op : String) (e : Arithmetic)
  | binary (op : String) (a b : Arithmetic)
  | conditional (c a b : Arithmetic)
  deriving Repr, Inhabited

inductive ArithmeticError
  | expecting (what : String)
  | divisionByZero
  | badNumber (text : Chars)
  deriving DecidableEq, Repr

namespace Arithmetic

/-- Binary operators from the loosest to the tightest, longer ones first at each level. -/
def levels : List (List String) :=
  [["||"], ["&&"], ["|"], ["^"], ["&"], ["==", "!="], ["<=", ">=", "<", ">"], ["<<", ">>"],
    ["+", "-"], ["*", "/", "%"]]

def assignments : List String :=
  ["<<=", ">>=", "+=", "-=", "*=", "/=", "%=", "&=", "|=", "^=", "="]

def skipBlanks (cs : Chars) : Chars := cs.dropWhile fun c ↦ isSpace c || c = '\n'

/-- An operator that stands here and is not the beginning of a longer one. -/
def operatorAt? (ops : List String) (cs : Chars) : Option (String × Chars) := do
  let cs := skipBlanks cs
  let op ← ops.find? fun op ↦ op.toList.isPrefixOf cs
  let rest := cs.drop op.length
  let next := rest.head?
  let longer := match op with
    | "|" | "&" => next = op.toList.head? || next = some '='
    | "<" | ">" => next = op.toList.head?
    | "=" => next = some '='
    | "==" | "!=" | "<=" | ">=" | "||" | "&&" => false
    | _ => op.length < 3 && !op.endsWith "=" && next = some '='
  if longer then none else some (op, rest)

def greatest : Nat := 0x7FFFFFFFFFFFFFFF

def isDigitOf (radix : Nat) (c : Char) : Bool := (Text.digitValue? radix c).isSome

/-- The longest number at the front of a text in decimal, octal or hexadecimal notation, and what follows it. -/
def takeNumeral? (cs : Chars) : Option (Nat × Chars) := do
  let (radix, mark) := match cs with
    | '0' :: x :: d :: _ =>
      if (x = 'x' || x = 'X') && isDigitOf 16 d then (16, 2) else (8, 0)
    | '0' :: _ => (8, 0)
    | _ => (10, 0)
  let ds := (cs.drop mark).takeWhile (isDigitOf radix)
  return (← Text.natural? radix ds, cs.drop (mark + ds.length))

def numeral? (cs : Chars) : Option Nat :=
  match takeNumeral? cs with
  | some (n, []) => some n
  | _ => none

abbrev Reader := StateT Chars (Except ArithmeticError)

def primaryMissing : ArithmeticError := .expecting "primary"

mutual

def expression (fuel : Nat) : Reader Arithmetic := do
  match fuel with
  | 0 => throw primaryMissing
  | fuel + 1 =>
    let cs := skipBlanks (← get)
    let name := cs.takeWhile fun c ↦ c.isAlphanum || c = '_'
    let isVariable := Parser.isName name
    match isVariable, operatorAt? assignments (cs.drop name.length) with
    | true, some (op, rest) =>
      set rest
      let value ← expression fuel
      return .assign (String.ofList name) (if op = "=" then none else some (op.dropEnd 1).toString) value
    | _, _ =>
      let c ← binaryLevel fuel levels
      match skipBlanks (← get) with
      | '?' :: rest =>
        set rest
        let a ← expression fuel
        match skipBlanks (← get) with
        | ':' :: rest =>
          set rest
          return .conditional c a (← expression fuel)
        | _ => throw (.expecting "':'")
      | _ => return c

def binaryLevel (fuel : Nat) (ls : List (List String)) : Reader Arithmetic := do
  match fuel, ls with
  | 0, _ => throw primaryMissing
  | fuel + 1, [] => unaryTerm fuel
  | fuel + 1, ops :: tighter => binaryRest fuel ops tighter (← binaryLevel fuel tighter)

def binaryRest (fuel : Nat) (ops : List String) (tighter : List (List String)) (a : Arithmetic) :
    Reader Arithmetic := do
  match fuel with
  | 0 => throw primaryMissing
  | fuel + 1 =>
    match operatorAt? ops (← get) with
    | some (op, rest) =>
      set rest
      binaryRest fuel ops tighter (.binary op a (← binaryLevel fuel tighter))
    | none => return a

def unaryTerm (fuel : Nat) : Reader Arithmetic := do
  match fuel with
  | 0 => throw primaryMissing
  | fuel + 1 =>
    let cs := skipBlanks (← get)
    match cs with
    | '(' :: rest =>
      set rest
      let e ← expression fuel
      match skipBlanks (← get) with
      | ')' :: rest => set rest; return e
      | _ => throw (.expecting "')'")
    | c :: rest =>
      if c ∈ ['+', '-', '!', '~'] then
        set rest
        return .unary (String.singleton c) (← unaryTerm fuel)
      else
        let word := cs.takeWhile fun c ↦ c.isAlphanum || c = '_'
        if Parser.isName word then
          set (cs.drop word.length)
          return .var (String.ofList word)
        match takeNumeral? cs with
        | some (n, rest) =>
          set rest
          return .number (min n greatest)
        | none => throw primaryMissing
    | [] => throw primaryMissing

end

def parse (cs : Chars) : Except ArithmeticError Arithmetic := do
  if (skipBlanks cs).isEmpty then return .number 0
  let (e, rest) ← (expression (16 * cs.length + 64)).run cs
  if (skipBlanks rest).isEmpty then return e else throw (.expecting "EOF")

def wrap (n : Int) : Int := n.bmod 0x10000000000000000

def ofBool (b : Bool) : Int := if b then 1 else 0

def bits (n : Int) : Nat := (n % 0x10000000000000000).toNat

def applyUnary : String → Int → Int
  | "-", n => wrap (-n)
  | "!", n => ofBool (n = 0)
  | "~", n => -n - 1
  | _, n => n

def applyBinary (op : String) (a b : Int) : Except ArithmeticError Int :=
  match op with
  | "+" => .ok (wrap (a + b))
  | "-" => .ok (wrap (a - b))
  | "*" => .ok (wrap (a * b))
  | "/" => if b = 0 then .error .divisionByZero else .ok (wrap (a.tdiv b))
  | "%" => if b = 0 then .error .divisionByZero else .ok (a.tmod b)
  | "<<" => .ok (wrap (a * Nat.pow 2 (b % 64).toNat))
  | ">>" => .ok (a / Nat.pow 2 (b % 64).toNat)
  | "<" => .ok (ofBool (a < b))
  | ">" => .ok (ofBool (b < a))
  | "<=" => .ok (ofBool (a ≤ b))
  | ">=" => .ok (ofBool (b ≤ a))
  | "==" => .ok (ofBool (a = b))
  | "!=" => .ok (ofBool (a ≠ b))
  | "&" => .ok (wrap (bits a &&& bits b))
  | "|" => .ok (wrap (bits a ||| bits b))
  | "^" => .ok (wrap (bits a ^^^ bits b))
  | _ => .error primaryMissing

/-- The value of a variable as a number; an unset or empty one is zero. -/
def numberOf (cs : Chars) : Except ArithmeticError Int :=
  let cs := Text.dropTrailing isSpace (skipBlanks cs)
  let (negative, ds) := match cs with
    | '-' :: ds => (true, ds)
    | '+' :: ds => (false, ds)
    | _ => (false, cs)
  if cs.isEmpty then .ok 0
  else
    match numeral? ds with
    | some n => .ok (if negative then -(min n (greatest + 1) : Nat) else (min n greatest : Nat))
    | none => .error (.badNumber cs)

def showInt (n : Int) : Chars :=
  if n < 0 then '-' :: decimal n.natAbs else decimal n.natAbs

/-- The value in a scope, and the scope after the assignments. An operand that does not decide is not evaluated. -/
def eval (s : Scope) : Arithmetic → Except ArithmeticError (Int × Scope)
  | number n => .ok (wrap n, s)
  | var name => do return (← numberOf ((s.valueOf? name).getD []), s)
  | assign name op e => do
    let (n, s) ← e.eval s
    let n ← match op with
      | some op => do applyBinary op (← numberOf ((s.valueOf? name).getD [])) n
      | none => .ok n
    return (n, s.assign name (showInt n))
  | unary op e => do
    let (n, s) ← e.eval s
    return (applyUnary op n, s)
  | binary "&&" a b => do
    let (n, s) ← a.eval s
    if n = 0 then return (0, s)
    let (m, s) ← b.eval s
    return (ofBool (m ≠ 0), s)
  | binary "||" a b => do
    let (n, s) ← a.eval s
    if n ≠ 0 then return (1, s)
    let (m, s) ← b.eval s
    return (ofBool (m ≠ 0), s)
  | binary op a b => do
    let (n, s) ← a.eval s
    let (m, s) ← b.eval s
    return (← applyBinary op n m, s)
  | conditional c a b => do
    let (n, s) ← c.eval s
    if n ≠ 0 then a.eval s else b.eval s

end Arithmetic

def arithmetic (cs : Chars) : Eval Chars := do
  let s ← scope
  match (do (← Arithmetic.parse cs).eval s : Except ArithmeticError (Int × Scope)) with
  | .ok (n, after) =>
    modifyScope fun _ ↦ after
    return Arithmetic.showInt n
  | .error .divisionByZero =>
    abandon ("arithmetic expression: division by zero: \"".toList ++ cs ++ ['"'])
  | .error (.expecting what) =>
    abandon ("arithmetic expression: expecting ".toList ++ what.toList ++ ": \"".toList ++ cs ++ ['"'])
  | .error (.badNumber text) => abandon ("Illegal number: ".toList ++ text)

end SelfHealing.Shell
