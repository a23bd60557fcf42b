import BuildPipeline.Proofs.Graph.Search
import Mathlib.Data.List.Chain
import Mathlib.Data.List.Nodup
import Mathlib.Logic.Relation

namespace BuildPipeline

/-- A directed cycle written out: it goes along edges, comes back to where it starts, and
meets no step twice on the way. -/
structure Edge.IsCycle (edges : List Edge) (names : List String) : Prop where
  two_le : 2 ≤ names.length
  closes : names.head? = names.getLast?
  nodup : names.dropLast.Nodup
  chain : names.IsChain fun before after => (before, after) ∈ edges

instance (edges : List Edge) (names : List String) : Decidable (Edge.IsCycle edges names) :=
  decidable_of_iff
    (2 ≤ names.length ∧ names.head? = names.getLast? ∧ names.dropLast.Nodup
      ∧ names.IsChain fun before after => (before, after) ∈ edges)
    ⟨fun h => ⟨h.1, h.2.1, h.2.2.1, h.2.2.2⟩, fun h =>
      ⟨h.two_le, h.closes, h.nodup, h.chain⟩⟩

theorem Edge.IsCycle.returns {edges : List Edge} {names : List String}
    (cycle : IsCycle edges names) :
    ∃ name ∈ names, Relation.TransGen (fun before after => (before, after) ∈ edges)
      name name := by
  obtain ⟨long, closes, _, chain⟩ := cycle
  match names, long, closes, chain with
  | first :: second :: rest, _, closes, chain =>
      obtain ⟨edge, chain⟩ := List.isChain_cons_cons.mp chain
      refine ⟨first, List.mem_cons_self, Relation.TransGen.head' edge ?_⟩
      have around := List.relationReflTransGen_of_exists_isChain (second :: rest) chain
        (List.cons_ne_nil _ _)
      have last : (second :: rest).getLast? = some first := closes.symm
      rwa [List.head_cons, (List.getLast_eq_iff_getLast?_eq_some _).mpr last] at around

namespace Search

variable {successors : String → List String} {search next : Search}

/-- The steps that are finished, the last one first: all successors of each were finished
before. -/
inductive Settled (successors : String → List String) : List String → Prop
  | nil : Settled successors []
  | cons {name : String} {earlier : List String} :
      (∀ successor ∈ successors name, successor ∈ earlier) →
      Settled successors earlier → Settled successors (name :: earlier)

theorem Settled.climbs {finished : List String} (settled : Settled successors finished)
    (nodup : finished.Nodup) {name successor : String} (member : name ∈ finished)
    (edge : successor ∈ successors name) :
    successor ∈ finished ∧ finished.idxOf name < finished.idxOf successor := by
  induction settled with
  | nil => cases member
  | @cons last earlier before _ ih =>
      obtain ⟨fresh, nodup⟩ := List.nodup_cons.mp nodup
      have later : successor ∈ earlier → last ≠ successor := by
        rintro finished rfl
        exact fresh finished
      rcases List.mem_cons.mp member with rfl | member
      · have finished := before successor edge
        refine ⟨List.mem_cons_of_mem _ finished, ?_⟩
        rw [List.idxOf_cons_self, List.idxOf_cons_ne _ (later finished)]
        omega
      · obtain ⟨finished, climbs⟩ := ih nodup member
        have other : last ≠ name := by
          rintro rfl
          exact fresh member
        refine ⟨List.mem_cons_of_mem _ finished, ?_⟩
        rw [List.idxOf_cons_ne _ other, List.idxOf_cons_ne _ (later finished)]
        omega

/-- The path from its inner end, `inner` being the step just entered from there: every
successor of a step on it is still to be visited, is finished, or is the next step
inwards. -/
inductive Trail (successors : String → List String) (finished : List String) :
    Option String → List (String × List String) → Prop
  | nil {inner : Option String} : Trail successors finished inner []
  | cons {inner : Option String} {name : String} {rest : List String}
      {outer : List (String × List String)} :
      (∀ successor ∈ rest, successor ∈ successors name) →
      (∀ successor ∈ successors name,
        successor ∈ rest ∨ successor ∈ finished ∨ inner = some successor) →
      (∀ entered, inner = some entered → entered ∈ successors name) →
      Trail successors finished (some name) outer →
      Trail successors finished inner ((name, rest) :: outer)

theorem Trail.grow {finished : List String} {inner : Option String} {name : String}
    {path : List (String × List String)} (trail : Trail successors finished inner path) :
    Trail successors (name :: finished) inner path := by
  induction trail with
  | nil => exact .nil
  | cons left seen entered _ ih =>
      refine .cons left (fun successor member => ?_) entered ih
      rcases seen successor member with toVisit | known | inward
      · exact .inl toVisit
      · exact .inr (.inl (List.mem_cons_of_mem _ known))
      · exact .inr (.inr inward)

theorem Trail.chain {finished : List String} {inner : Option String}
    {path : List (String × List String)} (trail : Trail successors finished inner path) :
    (path.map (·.1)).IsChain fun inside outside => inside ∈ successors outside := by
  induction trail with
  | nil => exact .nil
  | cons _ _ _ outer ih =>
      cases outer with
      | nil => exact .singleton _
      | cons _ _ entered _ => exact .cons_cons (entered _ rfl) ih

structure Sound (successors : String → List String) (search : Search) : Prop where
  trail : Trail successors search.finished none search.path
  settled : Settled successors search.finished
  nodup : (search.path.map (·.1) ++ search.finished).Nodup

theorem Sound.goes (sound : Sound successors search) (goes : Goes successors search next) :
    Sound successors next := by
  obtain ⟨trail, settled, nodup⟩ := sound
  cases goes with
  | leave name outer finished =>
      cases trail with
      | cons _ seen _ outside =>
          -- Nothing of the step that is left remains to be visited.
          have all : ∀ successor ∈ successors name, successor ∈ finished := by
            intro successor member
            rcases seen successor member with toVisit | known | inward
            · cases toVisit
            · exact known
            · cases inward
          refine ⟨?_, .cons all settled, (List.perm_middle.nodup_iff).mpr nodup⟩
          cases outside with
          | nil => exact .nil
          | cons left seen entered outside =>
              refine .cons left (fun successor member => ?_) (by rintro _ ⟨⟩) outside.grow
              rcases seen successor member with toVisit | known | inward
              · exact .inl toVisit
              · exact .inr (.inl (List.mem_cons_of_mem _ known))
              · cases inward
                exact .inr (.inl List.mem_cons_self)
  | pass name successor rest outer finished known =>
      cases trail with
      | cons left seen entered outside =>
          refine ⟨.cons (List.forall_mem_cons.mp left).2
            (fun other member => ?_) entered outside, settled, nodup⟩
          rcases seen other member with toVisit | finished | inward
          · rcases List.mem_cons.mp toVisit with rfl | toVisit
            · exact .inr (.inl known)
            · exact .inl toVisit
          · exact .inr (.inl finished)
          · cases inward
  | enter name successor rest outer finished unknown =>
      cases trail with
      | cons left seen entered outside =>
          obtain ⟨leads, left⟩ := List.forall_mem_cons.mp left
          refine ⟨.cons (fun _ member => member) (fun _ member => .inl member)
            (by rintro _ ⟨⟩) (.cons left (fun other member => ?_) ?_ outside), settled,
            List.nodup_cons.mpr ⟨unknown, nodup⟩⟩
          · rcases seen other member with toVisit | finished | inward
            · rcases List.mem_cons.mp toVisit with rfl | toVisit
              · exact .inr (.inr rfl)
              · exact .inl toVisit
            · exact .inr (.inl finished)
            · cases inward
          · rintro _ ⟨⟩
            exact leads

theorem Ends.finishes {outcome : Outcome} (ends : Ends successors search outcome)
    (sound : Sound successors search) {finished : List String}
    (done : outcome = .finished finished) :
    Sound successors ⟨[], finished⟩
      ∧ ∀ name ∈ search.path.map (·.1) ++ search.finished, name ∈ finished := by
  induction ends with
  | done moved =>
      cases done
      have empty := done_of_move moved
      refine ⟨⟨.nil, sound.settled, ?_⟩, fun name entered => by simpa [empty] using entered⟩
      simpa [empty] using sound.nodup
  | found _ => cases done
  | next moved _ ih =>
      have goes := goes_of_move moved
      obtain ⟨later, kept⟩ := ih (sound.goes goes) done
      refine ⟨later, fun name entered => kept name ?_⟩
      cases goes with
      | leave _ _ _ => exact List.perm_middle.mem_iff.mpr entered
      | pass _ _ _ _ _ _ => exact entered
      | enter _ _ _ _ _ _ => exact List.mem_cons_of_mem _ entered

theorem dropWhile_ne (names : List String) {name : String} (member : name ∈ names) :
    ∃ before after, names = before ++ name :: after
      ∧ names.dropWhile (fun other => decide (other ≠ name)) = name :: after := by
  induction names with
  | nil => cases member
  | cons first rest ih =>
      by_cases same : first = name
      · exact ⟨[], rest, by rw [same]; rfl, by simp [same]⟩
      · obtain ⟨before, after, split, dropped⟩ :=
          ih (List.mem_of_ne_of_mem (Ne.symm same) member)
        exact ⟨first :: before, after, by rw [split]; rfl, by simpa [same] using dropped⟩

theorem Sound.cycle {edges : List Edge} {search : Search}
    (sound : Sound (Edge.successors edges) search) {names : List String}
    (moved : search.move (Edge.successors edges) = .found names) :
    Edge.IsCycle edges names := by
  obtain ⟨name, successor, rest, outer, atStep, onPath, rfl⟩ := found_of_move moved
  obtain ⟨before, after, split, round⟩ :=
    dropWhile_ne (search.path.reverse.map (·.1)) (by simpa using onPath)
  have through : search.cycleThrough successor = successor :: after ++ [successor] := by
    rw [cycleThrough, round]
  have walked : ((search.path.reverse.map (·.1)) ++ [successor]).IsChain fun before after =>
      (before, after) ∈ edges := by
    have outward : (successor :: search.path.map (·.1)).IsChain fun inside outside =>
        inside ∈ Edge.successors edges outside := by
      have trail := sound.trail
      have chain := trail.chain
      rw [atStep] at trail chain ⊢
      cases trail with
      | cons left _ _ _ => exact .cons_cons (left successor List.mem_cons_self) chain
    have inward : (search.path.map (·.1)).reverse ++ [successor] =
        (successor :: search.path.map (·.1)).reverse := List.reverse_cons.symm
    rw [List.map_reverse, inward, List.isChain_reverse]
    exact outward.imp fun _ _ edge => Edge.mem_successors.mp edge
  rw [through]
  refine ⟨by simp, by rw [List.getLast?_concat]; rfl, ?_, ?_⟩
  · have nodup := (List.nodup_append.mp sound.nodup).1
    rw [← List.nodup_reverse, ← List.map_reverse, split] at nodup
    rw [List.dropLast_concat]
    exact (List.nodup_append.mp nodup).2.1
  · rw [split, List.append_assoc] at walked
    exact walked.suffix (List.suffix_append _ _)

theorem Ends.cycle {edges : List Edge} {search : Search} {outcome : Outcome}
    (ends : Ends (Edge.successors edges) search outcome)
    (sound : Sound (Edge.successors edges) search) {names : List String}
    (cycle : outcome = .cycle names) : Edge.IsCycle edges names := by
  induction ends with
  | done _ => cases cycle
  | found moved =>
      cases cycle
      exact sound.cycle moved
  | next moved _ ih => exact ih (sound.goes (goes_of_move moved)) cycle

theorem sound_root {finished : List String} (sound : Sound successors ⟨[], finished⟩)
    {root : String} (fresh : root ∉ finished) :
    Sound successors ⟨[(root, successors root)], finished⟩ := by
  refine ⟨.cons (fun _ member => member) (fun _ member => .inl member)
    (by rintro _ ⟨⟩) .nil, sound.settled, ?_⟩
  exact List.nodup_cons.mpr ⟨fresh, sound.nodup⟩

theorem Comes.cycle {edges : List Edge} {finished roots names : List String}
    (comes : Comes (Edge.successors edges) finished roots (some names))
    (sound : Sound (Edge.successors edges) ⟨[], finished⟩) : Edge.IsCycle edges names := by
  generalize atEnd : some names = found at comes
  induction comes with
  | nil => cases atEnd
  | skip _ _ ih => exact ih sound atEnd
  | found fresh ends =>
      cases atEnd
      exact ends.cycle (sound_root sound fresh) rfl
  | next fresh ends _ ih => exact ih (ends.finishes (sound_root sound fresh) rfl).1 atEnd

theorem Comes.finishes {finished roots : List String}
    (comes : Comes successors finished roots none)
    (sound : Sound successors ⟨[], finished⟩) :
    ∃ last, Sound successors ⟨[], last⟩ ∧ ∀ name ∈ finished ++ roots, name ∈ last := by
  generalize atEnd : none = found at comes
  induction comes with
  | nil => exact ⟨_, sound, fun name member => by simpa using member⟩
  | skip known _ ih =>
      obtain ⟨last, later, kept⟩ := ih sound atEnd
      refine ⟨last, later, fun name member => ?_⟩
      rcases List.mem_append.mp member with earlier | member
      · exact kept name (List.mem_append_left _ earlier)
      · rcases List.mem_cons.mp member with rfl | member
        · exact kept name (List.mem_append_left _ known)
        · exact kept name (List.mem_append_right _ member)
  | found _ _ => cases atEnd
  | next fresh ends _ ih =>
      obtain ⟨between, carried⟩ := ends.finishes (sound_root sound fresh) rfl
      obtain ⟨last, later, kept⟩ := ih between atEnd
      refine ⟨last, later, fun name member => ?_⟩
      rcases List.mem_append.mp member with earlier | member
      · exact kept name (List.mem_append_left
          _ (carried name (List.mem_cons_of_mem _ earlier)))
      · rcases List.mem_cons.mp member with rfl | member
        · exact kept name (List.mem_append_left _ (carried name List.mem_cons_self))
        · exact kept name (List.mem_append_right _ member)

end Search

section

variable {names : List String} {edges : List Edge}

/-- Only cycles are found. -/
theorem isCycle_of_cycle? (ends : ∀ edge ∈ edges, edge.2 ∈ names) {cycle : List String}
    (found : cycle? names edges = some cycle) : Edge.IsCycle edges cycle := by
  have comes := comes_cycle? ends
  rw [found] at comes
  exact comes.cycle ⟨.nil, .nil, List.nodup_nil⟩

/-- Where no cycle is found, the steps can be ranked so that every edge climbs. -/
theorem climbs_of_cycle? (starts : ∀ edge ∈ edges, edge.1 ∈ names)
    (ends : ∀ edge ∈ edges, edge.2 ∈ names) (unfound : cycle? names edges = none) :
    ∃ rank : String → Nat, ∀ edge ∈ edges, rank edge.1 < rank edge.2 := by
  have comes := comes_cycle? ends
  rw [unfound] at comes
  obtain ⟨finished, sound, all⟩ := comes.finishes ⟨.nil, .nil, List.nodup_nil⟩
  refine ⟨finished.idxOf, fun edge member => ?_⟩
  have entered : edge.1 ∈ finished := all _ (by simpa using starts edge member)
  exact (sound.settled.climbs sound.nodup entered (Edge.mem_successors.mpr member)).2

end

end BuildPipeline
