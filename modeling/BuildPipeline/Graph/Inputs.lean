import BuildPipeline.Digest.Sha256
import BuildPipeline.Document.Json.Writer
import BuildPipeline.Graph.Basic
import BuildPipeline.Table

namespace BuildPipeline.StepGraph

open Document

variable {κ ρ : Type}

/-- The external inputs of all steps as one document: names in order, each with its inputs
in order. -/
def inputTable (graph : StepGraph κ ρ) : List (String × List String) :=
  Text.sortByKey (Table.ofPairs
    (graph.steps.map fun step => (step.name, Text.sort (step.inputs.getD []))))

def inputText (graph : StepGraph κ ρ) : String :=
  Json.write Json.compact
    (.object (graph.inputTable.map fun entry => (entry.1, Value.texts entry.2)))

def inputDigest (graph : StepGraph κ ρ) : String :=
  Digest.Sha256.hexOfText graph.inputText

end BuildPipeline.StepGraph
