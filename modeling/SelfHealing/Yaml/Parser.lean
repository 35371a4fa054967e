import SelfHealing.Yaml.Lexer
import SelfHealing.Yaml.Node

/-!
Documents from tokens. An anchor gets the number of anchor names known before it, so that a name that is given
again moves to a number which the next new name takes over from it.
-/

namespace SelfHealing.Yaml

/-- What is left of the tokens, the numbers of the anchor names, the numbers in the order they were given, and the
nodes that have been read by that order. -/
structure Reading where
  tokens : List Token
  names : List (String × Nat)
  given : List Nat
  nodes : List (Nat × Node)
  handles : List (String × String)

abbrev Reader := StateT Reading Option

namespace Reader

def peek? : Reader (Option Token) := do return (← get).tokens.head?

def skip : Reader Unit := modify fun r ↦ { r with tokens := r.tokens.tail }

def accept (t : Token) : Reader Bool := do
  if (← peek?) = some t then
    skip
    return true
  else return false

def expect (t : Token) : Reader Unit := do
  if !(← accept t) then failure

/-- Whether one of some tokens comes next, or none at all. -/
def nextIn (ts : List Token) : Reader Bool := do
  return (← peek?).all (· ∈ ts)

/-- Gives an anchor's name its number, and returns the place of that in the order. -/
def give (name : String) : Reader Nat := do
  let r ← get
  let id := (r.names.map Prod.fst).eraseDups.length
  set { r with names := (name, id) :: r.names, given := r.given ++ [id] }
  return r.given.length

def keep (place : Option Nat) (n : Node) : Reader Node := do
  match place with
  | none => return n
  | some place =>
    modify fun r ↦ { r with nodes := (place, n) :: r.nodes }
    return n

def tagOf (handle suffix : String) : Reader String := do
  if handle.isEmpty then return suffix
  else
    match (← get).handles.lookup handle with
    | some lead => return lead ++ suffix
    | none => failure

structure Properties where
  anchor : Option String
  tag : Option String

def anchorName? : Reader (Option String) := do
  match ← peek? with
  | some (.anchor name) => skip; return some name
  | _ => return none

def tagName? : Reader (Option String) := do
  match ← peek? with
  | some (.tag handle suffix) => skip; return some (← tagOf handle suffix)
  | _ => return none

def properties : Reader Properties := do
  match ← anchorName? with
  | some name => return ⟨some name, ← tagName?⟩
  | none =>
    let tag ← tagName?
    return ⟨← anchorName?, tag⟩

/-- An exclamation mark alone is no tag for a scalar. -/
def scalarTag (tag : Option String) : Option String := tag.filter (· ≠ "!")

mutual

/-- A node. In a block it may be a block collection, and where a mapping's sequence need not be
indented, entries stand by themselves. -/
def node (fuel : Nat) (block unindented : Bool) : Reader Node := do
  match fuel with
  | 0 => failure
  | fuel + 1 =>
    match ← peek? with
    | some (.reference name) =>
      skip
      match (← get).names.lookup name with
      | some id => return .reference id
      | none => failure
    | _ =>
      let p ← properties
      let place ← p.anchor.mapM give
      match ← peek? with
      | some (.scalar text style) =>
        skip
        keep place (.scalar ⟨text, style, scalarTag p.tag⟩)
      | some .flowSequenceStart =>
        skip
        keep place (.sequence p.tag (← flowItems fuel true))
      | some .flowMappingStart =>
        skip
        keep place (.mapping p.tag (← flowEntries fuel true))
      | some .entry =>
        if unindented then keep place (.sequence p.tag (← unindentedItems fuel))
        else emptyNode p place
      | some .sequenceStart =>
        if block then
          skip
          keep place (.sequence p.tag (← blockItems fuel))
        else emptyNode p place
      | some .mappingStart =>
        if block then
          skip
          keep place (.mapping p.tag (← blockEntries fuel))
        else emptyNode p place
      | _ => emptyNode p place

/-- Properties without a node belong to an empty scalar. -/
def emptyNode (p : Properties) (place : Option Nat) : Reader Node :=
  if p.anchor.isSome || p.tag.isSome then keep place (.scalar ⟨"", .plain, p.tag⟩) else failure

def nodeUnless (fuel : Nat) (block unindented : Bool) (ends : List Token) : Reader Node := do
  match fuel with
  | 0 => failure
  | fuel + 1 => if ← nextIn ends then return .empty else node fuel block unindented

def blockItems (fuel : Nat) : Reader (List Node) := do
  match fuel with
  | 0 => failure
  | fuel + 1 =>
    if ← accept .entry then
      let n ← nodeUnless fuel true false [.entry, .blockEnd]
      return n :: (← blockItems fuel)
    else
      expect .blockEnd
      return []

def unindentedItems (fuel : Nat) : Reader (List Node) := do
  match fuel with
  | 0 => failure
  | fuel + 1 =>
    if ← accept .entry then
      let n ← nodeUnless fuel true false [.entry, .key, .value, .blockEnd]
      return n :: (← unindentedItems fuel)
    else return []

def blockEntries (fuel : Nat) : Reader (List (Node × Node)) := do
  match fuel with
  | 0 => failure
  | fuel + 1 =>
    let ends := [.key, .value, .blockEnd]
    if ← accept .key then
      let k ← nodeUnless fuel true true ends
      let v ← if ← accept .value then nodeUnless fuel true true ends else pure .empty
      return (k, v) :: (← blockEntries fuel)
    else
      expect .blockEnd
      return []

def flowItems (fuel : Nat) (first : Bool) : Reader (List Node) := do
  match fuel with
  | 0 => failure
  | fuel + 1 =>
    if ← accept .flowSequenceEnd then return []
    else
      if !first then expect .flowEntry
      if ← accept .key then
        let entry ← flowPair fuel
        return .mapping none [entry] :: (← flowItems fuel false)
      else if ← accept .flowSequenceEnd then return []
      else
        let n ← node fuel false false
        return n :: (← flowItems fuel false)

/-- The one entry of a mapping that is written without braces in a flow sequence. The token where its key is
missing is passed over. -/
def flowPair (fuel : Nat) : Reader (Node × Node) := do
  match fuel with
  | 0 => failure
  | fuel + 1 =>
    let k ← if ← nextIn [.value, .flowEntry, .flowSequenceEnd] then do
        skip
        pure .empty
      else node fuel false false
    let v ← if ← accept .value then
        nodeUnless fuel false false [.flowEntry, .flowSequenceEnd]
      else pure .empty
    return (k, v)

def flowEntries (fuel : Nat) (first : Bool) : Reader (List (Node × Node)) := do
  match fuel with
  | 0 => failure
  | fuel + 1 =>
    if ← accept .flowMappingEnd then return []
    else
      if !first then expect .flowEntry
      if ← accept .key then
        let k ← nodeUnless fuel false false [.value, .flowEntry, .flowMappingEnd]
        let v ← if ← accept .value then
            nodeUnless fuel false false [.flowEntry, .flowMappingEnd]
          else pure .empty
        return (k, v) :: (← flowEntries fuel false)
      else if ← accept .flowMappingEnd then return []
      else
        let k ← node fuel false false
        return (k, .empty) :: (← flowEntries fuel false)

end

/-- The handles that need no directive. -/
def standardHandles : List (String × String) := [("!", "!"), ("!!", "tag:yaml.org,2002:")]

/-- The directives before a document: at most one version, which has to be known, and each handle once. -/
def directives (fuel : Nat) (versioned : Bool) (handles : List (String × String)) :
    Reader (List (String × String)) := do
  match fuel with
  | 0 => failure
  | fuel + 1 =>
    match ← peek? with
    | some (.version major minor) =>
      skip
      if versioned || major ≠ 1 || (minor ≠ 1 && minor ≠ 2) then failure
      directives fuel true handles
    | some (.tagHandle handle lead) =>
      skip
      if (handles.lookup handle).isSome then failure
      directives fuel versioned ((handle, lead) :: handles)
    | _ => return handles

def finished : Reader Bool := do
  return (← get).tokens.all (· = .documentEnd)

def isDirective : Token → Bool
  | .version .. | .tagHandle .. => true
  | _ => false

def root (fuel : Nat) : Reader (Option Node) := do
  match ← peek? with
  | none => return none
  | some t =>
    if isDirective t || t = .documentStart then
      let handles ← directives fuel false []
      modify fun r ↦ { r with handles := handles ++ standardHandles }
      expect .documentStart
      match ← peek? with
      | none => return some .empty
      | some t =>
        if isDirective t || t = .documentStart || t = .documentEnd then return some .empty
        else return some (← node fuel true false)
    else return some (← node fuel true false)

/-- The nodes of the anchors: for every number the one that it was given to last. -/
def anchoredNodes (r : Reading) : List (Nat × Node) :=
  (r.given.zipIdx.filterMap fun (id, place) ↦ (r.nodes.lookup place).map ((id, ·))).reverse

def document (fuel : Nat) : Reader Document := do
  let n ← root fuel
  if ← finished then return ⟨n, anchoredNodes (← get)⟩ else failure

end Reader

def parse? (s : String) : Option Document := do
  let tokens ← tokens? s
  let (d, _) ← Reader.document (4 * tokens.length + 8) ⟨tokens, [], [], [], Reader.standardHandles⟩
  some d

end SelfHealing.Yaml
