import SelfHealing.Text.Numeral

/-!
Where requests go: the locations of servers, and the targets of requests to them. Only the form is checked.
-/

namespace SelfHealing.Net

def isPathChar (c : Char) : Bool :=
  c = '!' || c = '"' || ('$' ≤ c && c ≤ ';') || c = '=' || ('@' ≤ c && c ≤ '~' && c ≠ '`') ||
    '\x7f' ≤ c

def isQueryChar (c : Char) : Bool :=
  c = '!' || ('$' ≤ c && c ≤ ';') || c = '=' || ('?' ≤ c && c ≤ '~') || '\x7f' ≤ c

/-- A path with a query, both of the characters that they may hold. What follows a hash mark is left out. -/
def isTarget (cs : List Char) : Bool :=
  let cs := cs.takeWhile (· ≠ '#')
  let path := cs.takeWhile (· ≠ '?')
  path.all isPathChar && (cs.drop path.length).all isQueryChar

def isAuthorityChar (c : Char) : Bool :=
  c.isAlphanum || c ∈ "!$&'()*+,-.:;=@[]_~".toList

def endsAuthority (c : Char) : Bool := c = '/' || c = '?' || c = '#'

/-- What has been seen of an authority: the colons and whether there was an escape since the last mark that
clears them, and the brackets. -/
structure AuthorityScan where
  colons : Nat
  escaped : Bool
  opened : Bool
  closed : Bool
  deriving DecidableEq, Repr

namespace AuthorityScan

def start : AuthorityScan := ⟨0, false, false, false⟩

def step? (s : AuthorityScan) (c : Char) : Option AuthorityScan :=
  if c = ':' then if s.colons < 8 then some { s with colons := s.colons + 1 } else none
  else if c = '[' then if s.escaped || s.opened then none else some { s with opened := true }
  else if c = ']' then
    if !s.opened || s.closed then none
    else some { s with closed := true, colons := 0, escaped := false }
  else if c = '@' then some { s with colons := 0, escaped := false }
  else if c = '%' then some { s with escaped := true }
  else if isAuthorityChar c then some s
  else none

def isComplete (s : AuthorityScan) : Bool :=
  s.opened = s.closed && s.colons ≤ 1 && !s.escaped

end AuthorityScan

/-- A host with an optional port and user in front. Escapes belong to the user. -/
def isAuthority (cs : List Char) : Bool :=
  cs.getLast? ≠ some '@' &&
    (cs.foldlM AuthorityScan.step? AuthorityScan.start).any AuthorityScan.isComplete

def isSchemeChar (c : Char) : Bool := c.isAlphanum || c ∈ ['+', '-', '.']

def afterScheme? (cs : List Char) : Option (List Char) :=
  match cs.dropWhile isSchemeChar with
  | ':' :: '/' :: '/' :: rest => some rest
  | _ => none

/-- A location: an authority after a scheme and before a target, an authority alone, or a path. -/
def isLocation (s : String) : Bool :=
  let cs := s.toList
  match afterScheme? cs with
  | some rest =>
    let authority := rest.takeWhile (!endsAuthority ·)
    !authority.isEmpty && isAuthority authority && isTarget (rest.drop authority.length)
  | none =>
    match cs with
    | [] => false
    | '/' :: _ => isTarget cs
    | ['*'] => true
    | _ => !cs.any endsAuthority && isAuthority cs

end SelfHealing.Net
