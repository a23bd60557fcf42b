import BuildPipeline.Text.Basic
import Mathlib.Data.List.Infix

namespace BuildPipeline.Text

variable {sep : Char} {text before after : String}

/-- The parts of a text before and after the first place of a separator. -/
structure Cuts (sep : Char) (text before after : String) : Prop where
  split : text.toList = before.toList ++ sep :: after.toList
  fresh : sep ∉ before.toList

instance (sep : Char) (text before after : String) :
    Decidable (Cuts sep text before after) :=
  decidable_of_iff
    (text.toList = before.toList ++ sep :: after.toList ∧ sep ∉ before.toList)
    ⟨fun h => ⟨h.1, h.2⟩, fun h => ⟨h.split, h.fresh⟩⟩

theorem cutAt_append {before : List Char} (fresh : sep ∉ before) (after : List Char) :
    cutAt sep (before ++ sep :: after) = (before, some after) := by
  induction before with
  | nil => exact cutAt_self sep after
  | cons c rest ih =>
      obtain ⟨other, fresh⟩ := List.ne_and_not_mem_of_not_mem_cons fresh
      rw [List.cons_append, cutAt_cons_of_ne other.symm, ih fresh]

theorem cutAt_of_not_mem {text : List Char} (fresh : sep ∉ text) :
    cutAt sep text = (text, none) := by
  induction text with
  | nil => rfl
  | cons c rest ih =>
      obtain ⟨other, fresh⟩ := List.ne_and_not_mem_of_not_mem_cons fresh
      rw [cutAt_cons_of_ne other.symm, ih fresh]

theorem Cuts.cut_eq (cuts : Cuts sep text before after) :
    cut sep text = (before, some after) := by
  rw [cut, cuts.split, cutAt_append cuts.fresh]
  simp only [Option.map_some, String.ofList_toList]

theorem cut_of_not_mem (fresh : sep ∉ text.toList) : cut sep text = (text, none) := by
  rw [cut, cutAt_of_not_mem fresh]
  simp only [Option.map_none, String.ofList_toList]

theorem Cuts.unique {before' after' : String} (cuts : Cuts sep text before after)
    (cuts' : Cuts sep text before' after') : before = before' ∧ after = after' := by
  have same := cuts.cut_eq.symm.trans cuts'.cut_eq
  exact ⟨congrArg Prod.fst same, Option.some.inj (congrArg Prod.snd same)⟩

theorem exists_cuts (member : sep ∈ text.toList) :
    ∃ before after, Cuts sep text before after := by
  obtain ⟨before, after, split, fresh⟩ := List.eq_append_cons_of_mem member
  refine ⟨String.ofList before, String.ofList after, ?_, ?_⟩
  · rw [split, String.toList_ofList, String.toList_ofList]
  · rwa [String.toList_ofList]

theorem Cuts.mem (cuts : Cuts sep text before after) : sep ∈ text.toList := by
  rw [cuts.split]
  exact List.mem_append_right _ List.mem_cons_self

theorem Cuts.absent {c : Char} (cuts : Cuts sep text before after)
    (absent : c ∉ text.toList) :
    c ∉ before.toList ∧ c ∉ after.toList := by
  rw [cuts.split, List.mem_append, List.mem_cons, not_or, not_or] at absent
  exact ⟨absent.1, absent.2.2⟩

theorem absent_cut {c : Char} (absent : c ∉ text.toList) :
    c ∉ (cut sep text).1.toList ∧ c ∉ ((cut sep text).2.getD "").toList := by
  by_cases member : sep ∈ text.toList
  · obtain ⟨before, after, cuts⟩ := exists_cuts member
    rw [cuts.cut_eq]
    exact cuts.absent absent
  · rw [cut_of_not_mem member]
    exact ⟨absent, List.not_mem_nil⟩

/-- The part of a text before the first place of a separator is the whole text where there
is none. -/
def Before (sep : Char) (text part : String) : Prop :=
  text = part ∧ sep ∉ text.toList ∨ ∃ after, Cuts sep text part after

theorem before_cut (sep : Char) (text : String) : Before sep text (cut sep text).1 := by
  by_cases member : sep ∈ text.toList
  · obtain ⟨before, after, cuts⟩ := exists_cuts member
    rw [cuts.cut_eq]
    exact .inr ⟨after, cuts⟩
  · rw [cut_of_not_mem member]
    exact .inl ⟨rfl, member⟩

theorem Before.cut_eq {part : String} (begins : Before sep text part) :
    (cut sep text).1 = part := by
  rcases begins with ⟨rfl, fresh⟩ | ⟨after, cuts⟩
  · rw [cut_of_not_mem fresh]
  · rw [cuts.cut_eq]

theorem Before.fresh {part : String} (begins : Before sep text part) :
    sep ∉ part.toList := by
  rcases begins with ⟨rfl, fresh⟩ | ⟨after, cuts⟩
  · exact fresh
  · exact cuts.fresh

/-- Where a separator stands in front of texts without it, it is its last place in both. -/
theorem append_last_inj {before after before' after' : List Char} (fresh : sep ∉ after)
    (fresh' : sep ∉ after') (same : before ++ sep :: after = before' ++ sep :: after') :
    before = before' ∧ after = after' := by
  have turned : after.reverse ++ sep :: before.reverse =
      after'.reverse ++ sep :: before'.reverse := by
    simpa using congrArg List.reverse same
  have cut := congrArg (cutAt sep) turned
  rw [cutAt_append (by simpa using fresh), cutAt_append
    (by simpa using fresh'), Prod.mk.injEq,
    Option.some_inj, List.reverse_inj, List.reverse_inj] at cut
  exact cut.symm

theorem piecesAt_of_not_mem {text : List Char} (fresh : sep ∉ text) :
    piecesAt sep text = [text] := by
  induction text with
  | nil => rfl
  | cons c rest ih =>
      obtain ⟨other, fresh⟩ := List.ne_and_not_mem_of_not_mem_cons fresh
      rw [piecesAt, if_neg other.symm, ih fresh]

theorem piecesAt_append {before : List Char} (fresh : sep ∉ before) (after : List Char) :
    piecesAt sep (before ++ sep :: after) = before :: piecesAt sep after := by
  induction before with
  | nil => rw [List.nil_append, piecesAt, if_pos rfl]
  | cons c rest ih =>
      obtain ⟨other, fresh⟩ := List.ne_and_not_mem_of_not_mem_cons fresh
      rw [List.cons_append, piecesAt, if_neg other.symm, ih fresh]

theorem Cuts.pieces_eq (cuts : Cuts sep text before after) :
    pieces sep text = before :: pieces sep after := by
  rw [pieces, cuts.split, piecesAt_append cuts.fresh, List.map_cons, String.ofList_toList]
  rfl

theorem pieces_of_not_mem (fresh : sep ∉ text.toList) : pieces sep text = [text] := by
  rw [pieces, piecesAt_of_not_mem fresh, List.map_singleton, String.ofList_toList]

theorem not_mem_of_mem_pieces {piece : String} (member : piece ∈ pieces sep text) :
    sep ∉ piece.toList := by
  induction shorter : text.toList.length using Nat.strongRecOn generalizing text with
  | _ length ih =>
      by_cases separated : sep ∈ text.toList
      · obtain ⟨before, after, cuts⟩ := exists_cuts separated
        rw [cuts.pieces_eq, List.mem_cons] at member
        rcases member with rfl | member
        · exact cuts.fresh
        · refine ih _ ?_ member rfl
          have whole := congrArg List.length cuts.split
          rw [List.length_append, List.length_cons] at whole
          omega
      · rw [pieces_of_not_mem separated, List.mem_singleton] at member
        rwa [member]

theorem occursIn_iff {part whole : List Char} :
    occursIn part whole = true ↔ part <:+: whole := by
  induction whole with
  | nil => rw [occursIn, List.isEmpty_iff, List.infix_nil]
  | cons c rest ih =>
      rw [occursIn, Bool.or_eq_true, List.isPrefixOf_iff_prefix, ih, List.infix_cons_iff]

theorem contains_iff {part whole : String} :
    contains part whole = true ↔ part.toList <:+: whole.toList :=
  occursIn_iff

theorem replaceFirstIn_append (old new rest : List Char) :
    replaceFirstIn old new (old ++ rest) = new ++ rest := by
  cases whole : old ++ rest with
  | nil =>
      obtain ⟨rfl, rfl⟩ := List.append_eq_nil_iff.mp whole
      exact (List.append_nil new).symm
  | cons c after =>
      have starts : old.isPrefixOf (c :: after) = true := by
        rw [← whole, List.isPrefixOf_iff_prefix]
        exact List.prefix_append old rest
      rw [replaceFirstIn, if_pos starts, ← whole, List.drop_left]

theorem replaceFirst_of_starts {old whole : String} {rest : List Char}
    (starts : whole.toList = old.toList ++ rest) (new : String) :
    replaceFirst old new whole = new ++ String.ofList rest := by
  rw [replaceFirst, starts, replaceFirstIn_append, String.ofList_append,
    String.ofList_toList]

end BuildPipeline.Text
