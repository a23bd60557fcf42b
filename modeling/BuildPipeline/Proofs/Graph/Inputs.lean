import BuildPipeline.Graph.Inputs
import BuildPipeline.Proofs.Document.Unambiguous
import BuildPipeline.Proofs.Table
import BuildPipeline.Proofs.Text.Sorting

namespace BuildPipeline

variable {κ ρ κ' ρ' : Type}

namespace StepGraph

def inputPairs (graph : StepGraph κ ρ) : List (String × List String) :=
  graph.steps.map fun step => (step.name, Text.sort (step.inputs.getD []))

theorem keys_inputPairs (graph : StepGraph κ ρ) :
    Table.keys graph.inputPairs = graph.names := by
  simp [Table.keys, inputPairs, names, Function.comp_def]

theorem inputTable_eq {graph : StepGraph κ ρ} (distinct : graph.names.Nodup) :
    graph.inputTable = Text.sortByKey graph.inputPairs :=
  congrArg Text.sortByKey (Table.ofPairs_of_nodup ((keys_inputPairs graph).symm ▸ distinct))

theorem toList_inputText (graph : StepGraph κ ρ) :
    graph.inputText.toList = Document.Json.tableCode graph.inputTable :=
  Document.Json.toList_write_table graph.inputTable

theorem inputText_eq_iff_table {graph : StepGraph κ ρ} {other : StepGraph κ' ρ'} :
    graph.inputText = other.inputText ↔ graph.inputTable = other.inputTable := by
  rw [← String.toList_inj, toList_inputText, toList_inputText]
  exact Document.Json.tableCode_prefixFree.injective.eq_iff

theorem inputPairs_subset {graph : StepGraph κ ρ} {other : StepGraph κ' ρ'}
    (known : ∀ name ∈ graph.names, name ∈ other.names)
    (alike : ∀ step ∈ graph.steps, ∀ twin ∈ other.steps, step.name = twin.name →
      (step.inputs.getD []).Perm (twin.inputs.getD [])) :
        graph.inputPairs ⊆ other.inputPairs := by
  intro entry listed
  obtain ⟨step, member, rfl⟩ := List.mem_map.mp listed
  obtain ⟨twin, memberToo, same⟩ := List.mem_map.mp (known _ (List.mem_map_of_mem member))
  exact List.mem_map.mpr ⟨twin, memberToo,
    Prod.ext same (Text.sort_eq_iff.mpr (alike step member twin memberToo same.symm)).symm⟩

/-- The text to be hashed is the same for two graphs exactly if their steps have the same
names, and steps of one name have the same inputs, in whatever order and whatever
characters they are made of.  A step that says nothing of its inputs counts as one that
has none. -/
theorem inputText_eq_iff {graph : StepGraph κ ρ} {other : StepGraph κ' ρ'}
    (distinct : graph.names.Nodup) (distinctToo : other.names.Nodup) :
    graph.inputText = other.inputText
      ↔ (∀ name, name ∈ graph.names ↔ name ∈ other.names)
        ∧ ∀ step ∈ graph.steps, ∀ twin ∈ other.steps, step.name = twin.name →
            (step.inputs.getD []).Perm (twin.inputs.getD []) := by
  have keyed : (Table.keys graph.inputPairs).Nodup :=
    (keys_inputPairs graph).symm ▸ distinct
  have keyedToo : (Table.keys other.inputPairs).Nodup :=
    (keys_inputPairs other).symm ▸ distinctToo
  rw [inputText_eq_iff_table, inputTable_eq distinct, inputTable_eq distinctToo,
    Text.sortByKey_eq_iff keyed, List.perm_ext_iff_of_nodup keyed.of_map keyedToo.of_map]
  constructor
  · intro same
    refine ⟨fun name => ?_, fun step member twin memberToo named => ?_⟩
    · rw [← keys_inputPairs, ← keys_inputPairs]
      simp only [Table.keys, List.mem_map, same]
    · obtain ⟨found, listed, eq⟩ :=
        List.mem_map.mp ((same _).mp (List.mem_map_of_mem member))
      obtain ⟨name, inputs⟩ := Prod.mk.inj eq
      obtain rfl := List.inj_on_of_nodup_map distinctToo listed memberToo (name.trans named)
      exact Text.sort_eq_iff.mp inputs.symm
  · rintro ⟨known, alike⟩ entry
    constructor
    · exact fun listed => inputPairs_subset (fun name => (known name).mp) alike listed
    · exact fun listed => inputPairs_subset (fun name => (known name).mpr)
        (fun twin memberToo step member named =>
          (alike step member twin memberToo named.symm).symm)
        listed

def scored : StepGraph Unit Unit where
  steps := [{ name := "cli", inputs := some ["a\"b", "\\", "\n", "𝄞"], work := () },
    { name := "api", inputs := none, work := () }]
  edges := []

def transposed : StepGraph Unit Unit where
  steps := [{ name := "api", work := () },
    { name := "cli", inputs := some ["𝄞", "\n", "\\", "a\"b"], work := () }]
  edges := []

theorem scored_inputText :
    scored.names.Nodup ∧ transposed.names.Nodup
      ∧ scored.inputText = transposed.inputText := by
  have distinct : scored.names.Nodup := by decide
  have distinctToo : transposed.names.Nodup := by decide
  refine ⟨distinct, distinctToo, (inputText_eq_iff distinct distinctToo).mpr
    ⟨fun name => ?_, ?_⟩⟩
  · simp [names, scored, transposed, or_comm]
  · decide

end StepGraph

end BuildPipeline
