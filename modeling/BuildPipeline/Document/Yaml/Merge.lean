import BuildPipeline.Document.Yaml.Node

namespace BuildPipeline.Document.Yaml

/-! Mappings that take over the entries of others.  What they take comes before their own
entries, so that these win, and of several mappings in a list the last one comes first. -/

namespace Merge

abbrev Merging := StateT (Array Node) (Except Fault)

def kindAt (nodes : Array Node) (id : Nat) : Kind :=
  (nodes.getD id .empty).kind

def entriesAt? (nodes : Array Node) (id : Nat) : Option (List (Nat × Nat)) :=
  (nodes.getD id .empty).entries?

def setEntries (id : Nat) (entries : List (Nat × Nat)) (nodes : Array Node) : Array Node :=
  nodes.modify id fun node => { node with content := .mapping entries }

def first? (nodes : Array Node) (entries : List (Nat × Nat)) :
    Option (Nat × List (Nat × Nat)) :=
  match entries.span fun entry => kindAt nodes entry.1 != .merge with
  | (_, []) => none
  | (before, entry :: after) => some (entry.2, before ++ after)

def entriesOf (merge : Nat → Merging Unit) (id : Nat) : Merging (List (Nat × Nat)) := do
  match entriesAt? (← get) id with
  | none => throw .malformed
  | some _ =>
      merge id
      return (entriesAt? (← get) id).getD []

def taken (merge : Nat → Merging Unit) (source : Nat) : Merging (List (Nat × Nat)) := do
  match ((← get).getD source .empty).content with
  | .mapping _ => entriesOf merge source
  | .sequence items =>
      let each ← items.mapM (entriesOf merge)
      return each.reverse.flatten
  | .scalar _ => throw .malformed

def settleKey (nodes : Array Node) (entry : Nat × Nat) : Array Node :=
  if kindAt nodes entry.1 = .default then
    nodes.modify entry.1 fun node => { node with kind := .string }
  else nodes

/-- A mapping may ask for its own entries, directly or through others; every level has one
request less than the one above it. -/
def merge : Nat → Nat → Merging Unit
  | 0, _ => return ()
  | fuel + 1, id => do
      let nodes ← get
      let requests := ((entriesAt? nodes id).getD []).filter fun entry =>
        kindAt nodes entry.1 = .merge
      let found ← requests.foldlM (fun found _ => do
        let nodes ← get
        match first? nodes ((entriesAt? nodes id).getD []) with
        | none => return found
        | some (source, others) =>
            set (setEntries id others nodes)
            let more ← taken (merge fuel) source
            return found ++ more) []
      let own := (entriesAt? (← get) id).getD []
      modify fun nodes => own.foldl settleKey nodes
      if !found.isEmpty then modify (setEntries id (found ++ own))

end Merge

end BuildPipeline.Document.Yaml
