import BuildPipeline.Document.Yaml.Node
import BuildPipeline.Document.Yaml.Token

namespace BuildPipeline.Document.Yaml

/-! The nodes that tokens describe.  A token is looked at only when what came before it
makes sense, so of two faults the first one in the text counts. -/

namespace Nodes

/-- The tokens still to come, what the anchors so far name, what the handles stand for,
and the nodes so far, among them the collections that are still open, innermost first. -/
structure Parsing where
  tokens : List Token
  fault : Option Fault
  anchors : List (String × Nat) := []
  handles : List (String × String) := Tag.usualHandles
  nodes : Array Node := #[]
  opened : List Nat := []
  finished : Array Nat := #[]
  isEndless : Bool := false

abbrev Parse := StateT Parsing (Except Fault)

def fail : Parse α :=
  throw .malformed

def peek : Parse (Option Token) := do
  let parsing ← get
  match parsing.tokens, parsing.fault with
  | [], some fault => throw fault
  | tokens, _ => return tokens.head?

def advance : Parse Unit :=
  modify fun parsing => { parsing with tokens := parsing.tokens.tail }

def accept (token : Token) : Parse Bool := do
  if (← peek) = some token then
    advance
    return true
  else return false

def nextIsOneOf (tokens : List Token) : Parse Bool := do
  return (← peek).any tokens.contains

def anchor? : Parse (Option String) := do
  match ← peek with
  | some (.anchor name) =>
      advance
      return some name
  | _ => return none

def tag? : Parse (Option Tag) := do
  match ← peek with
  | some (.tag tag) =>
      advance
      return some tag
  | _ => return none

def properties : Parse (Option String × Option Tag) := do
  match ← anchor? with
  | some name => return (some name, ← tag?)
  | none =>
      let tag ← tag?
      match tag with
      | some _ => return (← anchor?, tag)
      | none => return (none, none)

def tagName : Option Tag → Parse (Option String)
  | none => return none
  | some tag => do
      match tag.name? (← get).handles with
      | some name => return some name
      | none => fail

/-- A new node takes its anchor, which no node before it may have. -/
def add (anchor : Option String) (node : Node) : Parse Nat := do
  let parsing ← get
  let id := parsing.nodes.size
  match anchor with
  | none => set { parsing with nodes := parsing.nodes.push node }
  | some name =>
      if (parsing.anchors.lookup name).isSome then fail
      else
        set { parsing with
          nodes := parsing.nodes.push node, anchors := (name, id) :: parsing.anchors }
  return id

def empty : Parse Nat :=
  add none Node.empty

def named (name : String) : Parse Nat := do
  let parsing ← get
  match parsing.anchors.lookup name with
  | none => fail
  | some id =>
      if parsing.opened.contains id then set { parsing with isEndless := true }
      return id

/-- A collection has its place before its items are read.  Only so many may stand inside
each other. -/
def depthLimit : Nat := 490

def checkDepth : Parse Unit := do
  if depthLimit ≤ (← get).opened.length then throw (.misuse .tooDeep)

def collection (anchor : Option String) (kind : Kind) (content : Parse Content) :
    Parse Nat := do
  let id ← add anchor ⟨kind, .sequence []⟩
  modify fun parsing => { parsing with opened := id :: parsing.opened }
  let content ← content
  modify fun parsing =>
    { parsing with
      nodes := parsing.nodes.setIfInBounds id ⟨kind, content⟩
      opened := parsing.opened.tail
      finished := parsing.finished.push id }
  return id

def sequence (anchor tag : Option String) (items : Parse (List Nat)) : Parse Nat :=
  collection anchor (.ofCollection .list tag) (.sequence <$> items)

def mapping (anchor tag : Option String) (entries : Parse (List (Nat × Nat))) : Parse Nat :=
  collection anchor (.ofCollection .mapping tag) (.mapping <$> entries)

def scalar (anchor tag : Option String) (text : String) (isPlain : Bool) : Parse Nat :=
  add anchor ⟨.ofScalar tag text isPlain, .scalar text⟩

/-- Where a node may stand: in brackets, as an entry of a block, or after a key, where
dashes at the column of the key begin a list. -/
inductive Position where
  | bracketed
  | block
  | afterKey
deriving DecidableEq, Repr

mutual

def node : Nat → Position → Parse Nat
  | 0, _ => fail
  | fuel + 1, position => do
      checkDepth
      match ← peek with
      | some (.alias name) =>
          advance
          named name
      | _ =>
          let (anchor, tag) ← properties
          content fuel position anchor (← tagName tag)

def content : Nat → Position → Option String → Option String → Parse Nat
  | 0, _, _, _ => fail
  | fuel + 1, position, anchor, tag => do
      let mayBeEmpty := anchor.isSome || tag.isSome
      match ← peek with
      | some (.scalar text isPlain) =>
          advance
          scalar anchor tag text isPlain
      | some .openList =>
          advance
          sequence anchor tag (listed fuel true)
      | some .openMapping =>
          advance
          mapping anchor tag (paired fuel true)
      | some .dash =>
          if position = .afterKey then sequence anchor tag (dashed fuel false)
          else if mayBeEmpty then scalar anchor tag "" true
          else fail
      | some .blockSequence =>
          if position ≠ .bracketed then
            advance
            sequence anchor tag (dashed fuel true)
          else if mayBeEmpty then scalar anchor tag "" true
          else fail
      | some .blockMapping =>
          if position ≠ .bracketed then
            advance
            mapping anchor tag (keyed fuel)
          else if mayBeEmpty then scalar anchor tag "" true
          else fail
      | _ => if mayBeEmpty then scalar anchor tag "" true else fail

/-- Reads the entries after dashes; a block that was opened has to be closed. -/
def dashed : Nat → Bool → Parse (List Nat)
  | 0, _ => fail
  | fuel + 1, closes => do
      if ← accept .dash then
        let ends := if closes then [.dash, .blockEnd] else [.dash, .key, .value, .blockEnd]
        let item ← if ← nextIsOneOf ends then empty else node fuel .block
        return item :: (← dashed fuel closes)
      else if closes then
        if ← accept .blockEnd then return [] else fail
      else return []

def keyed : Nat → Parse (List (Nat × Nat))
  | 0 => fail
  | fuel + 1 => do
      let ends := [.key, .value, .blockEnd]
      if ← accept .key then
        let key ← if ← nextIsOneOf ends then empty else node fuel .afterKey
        let value ← if ← accept .value then
            if ← nextIsOneOf ends then empty else node fuel .afterKey
          else empty
        return (key, value) :: (← keyed fuel)
      else if ← accept .blockEnd then return []
      else fail

def listed : Nat → Bool → Parse (List Nat)
  | 0, _ => fail
  | fuel + 1, first => do
      if ← accept .closeList then return []
      if !first then
        if !(← accept .comma) then fail
      if (← peek) = some .key then
        checkDepth
        let item ← mapping none none (lone fuel)
        return item :: (← listed fuel false)
      else if ← accept .closeList then return []
      else
        let item ← node fuel .bracketed
        return item :: (← listed fuel false)

/-- Reads the one entry of a mapping without braces. -/
def lone : Nat → Parse (List (Nat × Nat))
  | 0 => fail
  | fuel + 1 => do
      advance
      let ends := [.comma, .closeList]
      let key ← if ← nextIsOneOf (.value :: ends) then empty else node fuel .bracketed
      let value ← if ← accept .value then
          if ← nextIsOneOf ends then empty else node fuel .bracketed
        else empty
      return [(key, value)]

/-- Reads the entries between braces; a node without a key mark is a key without a value. -/
def paired : Nat → Bool → Parse (List (Nat × Nat))
  | 0, _ => fail
  | fuel + 1, first => do
      if ← accept .closeMapping then return []
      if !first then
        if !(← accept .comma) then fail
      if ← accept .key then
        let ends := [.comma, .closeMapping]
        let key ← if ← nextIsOneOf (.value :: ends) then empty else node fuel .bracketed
        let value ← if ← accept .value then
            if ← nextIsOneOf ends then empty else node fuel .bracketed
          else empty
        return (key, value) :: (← paired fuel false)
      else if ← accept .closeMapping then return []
      else
        let key ← node fuel .bracketed
        let value ← empty
        return (key, value) :: (← paired fuel false)

end

def directives : Nat → Bool → List (String × String) → Parse (List (String × String))
  | 0, _, _ => fail
  | fuel + 1, versioned, handles => do
      match ← peek with
      | some (.directive (.version major)) =>
          advance
          if versioned || major != 1 then fail else directives fuel true handles
      | some (.directive (.shorthand name start)) =>
          advance
          if (handles.lookup name).isSome then fail
          else directives fuel versioned ((name, start) :: handles)
      | some (.directive .other) =>
          advance
          directives fuel versioned handles
      | _ => return handles

def beginning (fuel : Nat) : Parse Unit := do
  let own ← directives fuel false []
  if !(← accept .documentStart) then fail
  modify fun parsing => { parsing with handles := own ++ Tag.usualHandles }

def skipEnds : Nat → Parse Unit
  | 0 => return ()
  | fuel + 1 => do
      if ← accept .documentEnd then skipEnds fuel else return ()

def isDirective : Token → Bool
  | .directive _ => true
  | _ => false

def document (fuel : Nat) : Parse (Option Nat) := do
  match ← peek with
  | none => return none
  | some token =>
      if isDirective token || token = .documentStart then
        beginning fuel
        match ← peek with
        | none => some <$> empty
        | some next =>
            if isDirective next || next = .documentStart || next = .documentEnd then
              some <$> empty
            else some <$> node fuel .block
      else some <$> node fuel .block

def single (fuel : Nat) : Parse (Option Nat) := do
  let root ← document fuel
  skipEnds fuel
  match ← peek with
  | none => return root
  | some _ =>
      beginning fuel
      fail

def ofTokens? (tokens : Tokens) : Except Fault (Option Nodes) := do
  let count := tokens.certain.length
  let (root, parsing) ←
    (single (4 * count + 4)).run { tokens := tokens.certain, fault := tokens.fault }
  return root.map fun root =>
    { nodes := parsing.nodes, root
      finished := parsing.finished, isEndless := parsing.isEndless }

end Nodes

end BuildPipeline.Document.Yaml
