import BuildPipeline.Document.Yaml.Kind

namespace BuildPipeline.Document.Yaml

/-- The nodes of a document, before they are given their values.  A node is known by its
place among all nodes, so that one node can stand in many others, and even in itself. -/
inductive Content where
  | scalar (text : String)
  | sequence (items : List Nat)
  | mapping (entries : List (Nat × Nat))
deriving DecidableEq, Repr

structure Node where
  kind : Kind
  content : Content
deriving DecidableEq, Repr

/-! `finished` are the collections in the order in which they ended.  In an endless
document some collection stands in itself. -/

structure Nodes where
  nodes : Array Node
  root : Nat
  finished : Array Nat
  isEndless : Bool

namespace Node

def empty : Node :=
  ⟨.null, .scalar ""⟩

instance : Inhabited Node := ⟨empty⟩

def entries? (node : Node) : Option (List (Nat × Nat)) :=
  match node.content with
  | .mapping entries => some entries
  | _ => none

def size (node : Node) : Nat :=
  match node.content with
  | .scalar _ => 1
  | .sequence items => items.length + 1
  | .mapping entries => entries.length + 1

def bound (nodes : Array Node) : Nat :=
  nodes.foldl (fun n node => n + node.size) 1

end Node

end BuildPipeline.Document.Yaml
