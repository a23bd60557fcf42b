import BuildPipeline.Proofs.Release.PublicHost

namespace BuildPipeline.Mirror

variable {reference repository result : String}

/-- A reference under the host of a public repository, or as it is where the port is not
mentioned or one of the two has no host. -/
inductive Rehosted (reference repository : String) : String → Prop
  | moved {host path publicHost publicPath : String} :
      Text.contains internalPort reference = true → Text.Cuts '/' reference host path →
      Text.Cuts '/' repository publicHost publicPath →
      Rehosted reference repository (publicHost ++ "/" ++ path)
  | kept : (Text.contains internalPort reference = true → '/' ∈ reference.toList →
      '/' ∉ repository.toList) → Rehosted reference repository reference

theorem publicReference_of_unmentioned
    (unmentioned : ¬ Text.contains internalPort reference = true) (repository : String) :
    publicReference reference repository = reference :=
  if_neg unmentioned

theorem publicReference_rehosted (reference repository : String) :
    Rehosted reference repository (publicReference reference repository) := by
  by_cases mentioned : Text.contains internalPort reference = true
  · by_cases hosts : '/' ∈ reference.toList ∧ '/' ∈ repository.toList
    · obtain ⟨host, path, cuts⟩ := Text.exists_cuts hosts.1
      obtain ⟨publicHost, publicPath, cuts'⟩ := Text.exists_cuts hosts.2
      rw [publicReference_of_cuts mentioned cuts cuts']
      exact .moved mentioned cuts cuts'
    · rw [publicReference_of_hostless (not_and_or.mp hosts)]
      exact .kept fun _ member member' => hosts ⟨member, member'⟩
  · rw [publicReference_of_unmentioned mentioned]
    exact .kept fun found => absurd found mentioned

theorem cuts_moved {publicHost publicPath : String} (path : String)
    (cuts : Text.Cuts '/' repository publicHost publicPath) :
    Text.Cuts '/' (publicHost ++ "/" ++ path) publicHost path := by
  refine ⟨?_, cuts.fresh⟩
  rw [String.toList_append, String.toList_append, List.append_assoc]
  rfl

theorem Rehosted.path_eq (rehosted : Rehosted reference repository result) :
    (Text.cut '/' result).2 = (Text.cut '/' reference).2 := by
  cases rehosted with
  | moved _ cuts cuts' => rw [cuts.cut_eq, (cuts_moved _ cuts').cut_eq]
  | kept => rfl

theorem Rehosted.again (rehosted : Rehosted reference repository result) :
    publicReference result repository = result := by
  by_cases mentioned : Text.contains internalPort result = true
  · cases rehosted with
    | moved _ _ cuts' => exact publicReference_of_cuts mentioned (cuts_moved _ cuts') cuts'
    | kept hostless =>
        refine publicReference_of_hostless ?_
        by_cases member : '/' ∈ reference.toList
        · exact .inr (hostless mentioned member)
        · exact .inl member
  · exact publicReference_of_unmentioned mentioned repository

/-- A rewritten reference is the one it was or has another host in front of its first
slash, what stands behind that is the same, and rewriting it once more does nothing. -/
theorem publicReference_changes_host (reference repository : String) :
    Rehosted reference repository (publicReference reference repository)
      ∧ (Text.cut '/' (publicReference reference repository)).2 = (Text.cut '/' reference).2
      ∧ publicReference (publicReference reference repository) repository
          = publicReference reference repository := by
  have rehosted := publicReference_rehosted reference repository
  exact ⟨rehosted, rehosted.path_eq, rehosted.again⟩

example : publicReference "foo:5000/ns/foo:5000" "bar.example.com/ns/img"
    = "bar.example.com/ns/foo:5000" := by
  decide

end BuildPipeline.Mirror
