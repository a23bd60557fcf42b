import BuildPipeline.Table
import BuildPipeline.Text.Basic
import Mathlib.Data.List.Nodup
import Mathlib.Data.String.Basic

namespace BuildPipeline

variable {α : Type}

namespace Text

theorem pairwise_sort (texts : List String) : (sort texts).Pairwise (· ≤ ·) := by
  simpa [sort] using @List.pairwise_mergeSort String (fun a b => decide (a ≤ b))
    (by simpa using fun _ _ _ => le_trans) (by simpa using le_total) texts

/-- Sorting forgets the order of texts, and nothing else. -/
theorem sort_eq_iff {texts others : List String} :
    sort texts = sort others ↔ texts.Perm others := by
  constructor
  · intro same
    exact (sort_perm texts).symm.trans (same ▸ sort_perm others)
  · intro perm
    refine List.Perm.eq_of_pairwise (fun _ _ _ _ => le_antisymm) (pairwise_sort _)
      (pairwise_sort _) ?_
    exact (sort_perm texts).trans (perm.trans (sort_perm others).symm)

theorem sortByKey_perm (entries : List (String × α)) : (sortByKey entries).Perm entries :=
  List.mergeSort_perm entries _

theorem pairwise_sortByKey (entries : List (String × α)) :
    (sortByKey entries).Pairwise (·.1 ≤ ·.1) := by
  simpa [sortByKey] using
    @List.pairwise_mergeSort (String × α) (fun a b => decide (a.1 ≤ b.1))
      (by simpa using fun _ _ _ _ _ _ => le_trans)
      (by simpa using fun _ _ _ _ => le_total _ _) entries

/-- Where every key stands once, sorting by keys forgets the order of the entries, and
nothing else. -/
theorem sortByKey_eq_iff {entries others : List (String × α)}
    (nodup : (Table.keys entries).Nodup) :
    sortByKey entries = sortByKey others ↔ entries.Perm others := by
  constructor
  · intro same
    exact (sortByKey_perm entries).symm.trans (same ▸ sortByKey_perm others)
  · intro perm
    refine List.Perm.eq_of_pairwise (fun a b first second up down => ?_)
      (pairwise_sortByKey _) (pairwise_sortByKey _)
      ((sortByKey_perm entries).trans (perm.trans (sortByKey_perm others).symm))
    exact List.inj_on_of_nodup_map nodup ((sortByKey_perm entries).mem_iff.mp first)
      (perm.mem_iff.mpr ((sortByKey_perm others).mem_iff.mp second)) (le_antisymm up down)

end Text

end BuildPipeline
