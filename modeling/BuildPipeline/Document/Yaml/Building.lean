import BuildPipeline.Document.Yaml.Merge
import BuildPipeline.Document.Yaml.Scalar
import BuildPipeline.Document.Yaml.Structure

namespace BuildPipeline.Document.Yaml

/-! Giving the nodes of a document their values, level by level: the texts in a collection
have their values before the collections in it are looked at.  So of two faults the one
that is nearer to the root counts. -/

inductive Part where
  | value (value : Value)
  | whole (id : Nat)

inductive Filling where
  | list (items : List Part)
  | mapping (entries : List (Value × Part))
  | set (members : List Value)
  | pairs (items : List (Part × Part))

/-- What every node stands for, as far as it is known, what the collections hold, and the
collections that are still to be filled, latest first. -/
structure Building where
  nodes : Array Node
  parts : Array (Option Part)
  fillings : Array (Option Filling)
  waiting : List Nat := []
  fuel : Nat

namespace Building

abbrev Build := StateT Building (Except Fault)

def nodeAt (id : Nat) : Build Node := do
  return (← get).nodes.getD id .empty

/-- A mapping in the place of a text stands for its default value. -/
def textOf (nodes : Array Node) : Nat → Nat → Except Fault String
  | 0, _ => .error (.misuse .tooDeep)
  | fuel + 1, id =>
      match (nodes.getD id .empty).content with
      | .scalar text => .ok text
      | .sequence _ => .error .malformed
      | .mapping entries =>
          match entries.find? fun entry => Merge.kindAt nodes entry.1 = .default with
          | some entry => textOf nodes fuel entry.2
          | none => .error .malformed

def hasValue : Kind → Bool
  | .merge | .default | .unknown => false
  | _ => true

def scalar (id : Nat) (node : Node) : Build Value := do
  if !hasValue node.kind then throw .malformed
  let building ← get
  let text ← textOf building.nodes building.fuel id
  if node.kind = .moment ∧ node.entries?.isSome then throw (.misuse .wrongType)
  Scalar.value node.kind text

def part (id : Nat) : Build Part := do
  match (← get).parts.getD id none with
  | some part => return part
  | none =>
      let node ← nodeAt id
      let part ← if node.kind.isCollection then pure (.whole id)
      else .value <$> scalar id node
      modify fun building =>
        { building with
          parts := building.parts.setIfInBounds id (some part)
          waiting :=
            if node.kind.isCollection then id :: building.waiting else building.waiting }
      return part

def key (id : Nat) : Build Value := do
  match ← part id with
  | .value value => return value
  | .whole _ => throw .malformed

def entry (entries : List (Value × Part)) (ids : Nat × Nat) :
    Build (List (Value × Part)) := do
  let key ← key ids.1
  return Entries.put entries key (← part ids.2)

def entries (id : Nat) : Build (List (Value × Part)) := do
  let building ← get
  if (Merge.entriesAt? building.nodes id).isNone then throw .malformed
  let ((), nodes) ← (Merge.merge building.fuel id).run building.nodes
  set { building with nodes }
  ((Merge.entriesAt? nodes id).getD []).foldlM entry []

def items (node : Node) : Build (List Nat) :=
  match node.content with
  | .sequence items => return items
  | _ => throw .malformed

/-- Each item of a list of pairs is a mapping with one entry. -/
def pair (id : Nat) : Build (Part × Part) := do
  match (← nodeAt id).entries? with
  | some [(first, second)] =>
      let first ← part first
      return (first, ← part second)
  | _ => throw .malformed

def filling (id : Nat) : Build Filling := do
  let node ← nodeAt id
  match node.kind with
  | .mapping => return .mapping (← entries id)
  | .set => return .set ((← entries id).map (·.1))
  | .pairs => return .pairs (← (← items node).mapM pair)
  | _ => return .list (← (← items node).mapM part)

def fill (id : Nat) : Build Unit := do
  let filling ← filling id
  modify fun building =>
    { building with fillings := building.fillings.setIfInBounds id (some filling) }

def fillAll : Nat → Build Unit
  | 0 => return ()
  | fuel + 1 => do
      let waiting := (← get).waiting
      if waiting.isEmpty then return ()
      modify fun building => { building with waiting := [] }
      waiting.reverse.forM fill
      fillAll fuel

def partValue (values : Array Value) : Part → Value
  | .value value => value
  | .whole id => values.getD id .null

/-- The members of a set come in the order of their size if they are whole numbers. -/
def wholeNumber? (value : Value) : Option Int :=
  match value.number? with
  | some (.inl n) => some n
  | _ => none

def ordered (members : List Value) : List Value :=
  match members.mapM fun member => (wholeNumber? member).map (·, member) with
  | some numbered => (numbered.mergeSort fun a b => decide (a.1 ≤ b.1)).map (·.2)
  | none => members

def fillingValue (values : Array Value) : Filling → Value
  | .list items => .list (items.map (partValue values))
  | .mapping entries =>
      .mapping (entries.map fun entry => (entry.1, partValue values entry.2))
  | .set members => .set (ordered members)
  | .pairs items =>
      .list (items.map fun item =>
        .pair (partValue values item.1) (partValue values item.2))

def unfilled : Filling → Value
  | .list _ | .pairs _ => .list []
  | .set _ => .set []
  | .mapping _ => .mapping []

/-- Where no collection stands in itself, each has its value after the ones in it, which
ended before it. -/
def valuesOf (building : Building) (finished : Array Nat) : Array Value :=
  finished.foldl
    (fun values id =>
      match building.fillings.getD id none with
      | some filling => values.setIfInBounds id (fillingValue values filling)
      | none => values)
    (Array.replicate building.nodes.size .null)

/-- Where a collection stands in itself all of them are marked, and unfolded as deep as is
needed for each to be met again on every way through them, and for a reader to go some
steps ahead. -/
def stepsAhead : Nat := 8

def level (building : Building) (value : Filling → Value) : Array Value :=
  building.fillings.mapIdx fun id filling =>
    match filling with
    | some filling => .shared id (value filling)
    | none => .null

def levels (building : Building) : Nat → Array Value
  | 0 => building.level unfilled
  | depth + 1 =>
      let values := levels building depth
      building.level (fillingValue values)

def unfolded (building : Building) (finished : Array Nat) : Array Value :=
  building.levels (finished.size + stepsAhead)

def ofNodes (nodes : Nodes) : Building :=
  let count := nodes.nodes.size
  { nodes := nodes.nodes
    parts := Array.replicate count none
    fillings := Array.replicate count none
    fuel := Node.bound nodes.nodes }

def document (nodes : Nodes) : Except Fault Value := do
  let build : Build Part := do
    let root ← part nodes.root
    fillAll (nodes.nodes.size + 1)
    return root
  let (root, building) ← build.run (ofNodes nodes)
  let values :=
    if nodes.isEndless then building.unfolded nodes.finished
    else building.valuesOf nodes.finished
  return partValue values root

end Building

def isReadable (c : Char) : Bool :=
  let code := c.toNat
  code == 0x09 || code == 0x0a || code == 0x0d || (0x20 ≤ code && code ≤ 0x7e)
    || code == 0x85
    || (0xa0 ≤ code && code ≤ 0xd7ff) || (0xe000 ≤ code && code ≤ 0xfffd) || 0x10000 ≤ code

/-- A text without any document reads as nothing. -/
def read (text : String) : Except Fault Value := do
  if !text.toList.all isReadable then throw .malformed
  match ← Nodes.ofTokens? (Tokens.ofText text) with
  | none => return .null
  | some nodes => Building.document nodes

end BuildPipeline.Document.Yaml
