import BuildPipeline.Proofs.Execution.Halt

namespace BuildPipeline

variable {κ ρ σ : Type}

namespace Environment

variable {env : Environment κ ρ σ} {graph : StepGraph κ ρ} {parallelism turns : Nat}
  {first top left progress next : Progress ρ σ} {allowed : Action κ ρ → Prop}
  {name : String}

theorem drain_again_last
    (again : env.drain graph parallelism (turns + 1) first = (.again, top)) :
    ∃ before, env.drain graph parallelism turns first = (.again, before)
      ∧ env.turn graph parallelism before = (.again, top) := by
  induction turns generalizing first with
  | zero =>
      rw [drain] at again
      rcases taken : env.turn graph parallelism first with ⟨_ | _ | failure, stand⟩
      · simp only [taken, drain] at again
        exact ⟨first, rfl, taken.trans again⟩
      · simp [taken] at again
      · simp [taken] at again
  | succ turns ih =>
      rw [drain] at again
      rcases taken : env.turn graph parallelism first with ⟨_ | _ | failure, stand⟩
      · simp only [taken] at again
        obtain ⟨before, earlier, turned⟩ := ih again
        exact ⟨before, by rw [drain, taken]; exact earlier, turned⟩
      · simp [taken] at again
      · simp [taken] at again

theorem drain_done_last (done : env.drain graph parallelism turns first = (.done, left)) :
    ∃ earlier top, env.drain graph parallelism earlier first = (.again, top)
      ∧ env.turn graph parallelism top = (.done, left) := by
  induction turns generalizing first with
  | zero => cases done
  | succ turns ih =>
      rw [drain] at done
      rcases taken : env.turn graph parallelism first with ⟨_ | _ | failure, stand⟩
      · simp only [taken] at done
        obtain ⟨earlier, top, again, turned⟩ := ih done
        exact ⟨earlier + 1, top, by rw [drain, taken]; exact again, turned⟩
      · simp only [taken] at done
        exact ⟨0, first, rfl, taken.trans done⟩
      · simp [taken] at done

theorem stopped_waiting (env : Environment κ ρ σ) (parallelism : Nat)
    (anchored : graph.Anchored) (underWay : UnderWay graph top)
    (uncancelled : env.cancelled (env.propagateSkips graph top).world = false) :
    (env.waiting graph parallelism top).stopped = top.stopped := by
  have skips := propagateSkips_reaches env graph parallelism top
  have launches :=
    startReady_launches env parallelism anchored (underWay.reaches anchored skips)
  rw [waiting, noticeCancellation_of_uncancelled uncancelled]
  exact (stopped_of_reaches launches id).trans (stopped_of_reaches skips id)

theorem halted_waiting (anchored : graph.Anchored) (underWay : UnderWay graph top)
    (known : top.stopped = true → Halted graph top)
    (stopped : (env.waiting graph parallelism top).stopped = true) :
    Halted graph (env.waiting graph parallelism top) := by
  by_cases before : top.stopped = true
  · rw [(known before).waiting_eq underWay anchored]
    exact known before
  · have cancelled : env.cancelled (env.propagateSkips graph top).world = true := by
      by_contra uncancelled
      have same :=
        stopped_waiting env parallelism anchored underWay (by simpa using uncancelled)
      exact before (same ▸ stopped)
    have sees : env.Sees graph top := ⟨by simpa using before, cancelled⟩
    exact sees.halted underWay anchored

theorem halted_top (anchored : graph.Anchored) {register : Register ρ} {world : σ}
    (again : env.drain graph parallelism turns
      (env.entry graph register world) = (.again, top))
    (stopped : top.stopped = true) : Halted graph top := by
  induction turns generalizing top with
  | zero =>
      cases again
      rw [(entry_fresh env graph register world).2.2.1] at stopped
      cases stopped
  | succ turns ih =>
      obtain ⟨before, earlier, turned⟩ := drain_again_last again
      have underWay := underWay_top anchored earlier
      rcases turn_cases env graph parallelism before with ⟨_, eq⟩ | ⟨_, eq⟩ | ⟨flying, eq⟩
      · cases turned.symm.trans eq
      · cases turned.symm.trans eq
      · cases turned.symm.trans eq
        -- A wait notices no cancellation: what is seen after it was seen before it.
        have collects := collect_reaches env graph parallelism flying
        have halted : Halted graph (env.waiting graph parallelism before) := by
          exact halted_waiting anchored underWay (ih earlier)
            ((stopped_of_reaches collects id).symm.trans stopped)
        exact halted.reaches (underWay.reaches anchored
          (waiting_decides env parallelism anchored underWay)) anchored collects

theorem Halted.hasSettled (halted : Halted graph progress)
    (underWay : UnderWay graph progress) (anchored : graph.Anchored)
    (acyclic : graph.Acyclic) (landed : progress.inFlight = []) :
    HasSettled graph progress := by
  intro name member
  obtain ⟨step, ordered, rfl⟩ := StepGraph.exists_orderedStep anchored acyclic member
  rcases StepState.isTerminal_or_isWaiting_or_running (progress.ledger.state step.name) with
    terminal | waiting | running
  · exact terminal
  · rw [halted.idle step ordered] at waiting
    cases waiting
  · have flying := (underWay.tidy.running_iff step.name).mp running
    rw [landed] at flying
    cases flying

theorem settled_of_done (wellFormed : graph.WellFormed) (acyclic : graph.Acyclic)
    (positive : 0 < parallelism) {register : Register ρ} {world : σ}
    (done : env.drain graph parallelism turns (env.entry graph register world) =
      (.done, left)) :
    left.inFlight = [] ∧ HasSettled graph left := by
  have anchored := wellFormed.anchored
  obtain ⟨earlier, top, again, turned⟩ := drain_done_last done
  have underWay := underWay_top anchored again
  rcases turn_cases env graph parallelism top with ⟨_, eq⟩ | ⟨landed, eq⟩ | ⟨_, eq⟩
  · cases turned.symm.trans eq
  · cases turned.symm.trans eq
    refine ⟨landed, ?_⟩
    by_cases stopped : (env.waiting graph parallelism top).stopped = true
    · have halted := halted_waiting anchored underWay (halted_top anchored again) stopped
      exact halted.hasSettled (underWay.reaches anchored
        (waiting_decides env parallelism anchored underWay)) anchored acyclic landed
    · exact drain_settled wellFormed acyclic
        (orderly_entry env wellFormed parallelism register world)
        positive done (by simpa using stopped)
  · cases turned.symm.trans eq

/-- Every wait of a run brings something: at least one of the steps in flight has ended by
then. -/
def Prompt (env : Environment κ ρ σ) (graph : StepGraph κ ρ) (parallelism : Nat)
    (first : Progress ρ σ) : Prop :=
  ∀ turns top, env.drain graph parallelism turns first = (.again, top) →
    (env.waiting graph parallelism top).inFlight ≠ [] →
    ∃ completion ∈ (env.await (env.waiting graph parallelism top).ledger
        (env.waiting graph parallelism top).inFlight
        (env.waiting graph parallelism top).world).1,
      completion.name ∈ (env.waiting graph parallelism top).inFlight

theorem Prompt.after (prompt : env.Prompt graph parallelism first)
    (again : env.drain graph parallelism turns first = (.again, progress)) :
    env.Prompt graph parallelism progress := by
  intro more top drained flying
  exact prompt _ top ((drain_add again more).trans drained) flying

theorem inFlight_record_sublist (env : Environment κ ρ σ) (progress : Progress ρ σ)
    (completion : Completion) :
    (env.record progress completion).inFlight.Sublist progress.inFlight := by
  by_cases flying : completion.name ∈ progress.inFlight
  · rw [inFlight_record env flying]
    exact List.erase_sublist
  · rw [record, if_neg flying]

theorem not_mem_inFlight_record (env : Environment κ ρ σ) (nodup : progress.inFlight.Nodup)
    (completion : Completion) :
    completion.name ∉ (env.record progress completion).inFlight := by
  by_cases flying : completion.name ∈ progress.inFlight
  · rw [inFlight_record env flying]
    exact nodup.not_mem_erase
  · rw [record, if_neg flying]
    exact flying

theorem not_mem_inFlight_foldl_record (env : Environment κ ρ σ)
    {completions : List Completion} (nodup : progress.inFlight.Nodup) :
    (completions.foldl env.record progress).inFlight.Sublist progress.inFlight
      ∧ ∀ completion ∈ completions,
          completion.name ∉ (completions.foldl env.record progress).inFlight := by
  induction completions generalizing progress with
  | nil => exact ⟨.refl _, by simp⟩
  | cons completion rest ih =>
      have fewer := inFlight_record_sublist env progress completion
      obtain ⟨later, gone⟩ := ih (nodup.sublist fewer)
      refine ⟨later.trans fewer, List.forall_mem_cons.mpr ⟨fun flying => ?_, gone⟩⟩
      exact not_mem_inFlight_record env nodup completion (later.subset flying)

theorem not_mem_inFlight_collect (env : Environment κ ρ σ) (nodup : progress.inFlight.Nodup)
    {completion : Completion}
    (delivered : completion ∈
      (env.await progress.ledger progress.inFlight progress.world).1) :
    completion.name ∉ (env.collect progress).inFlight := by
  let waited : Progress ρ σ :=
    { progress with
      world := (env.await progress.ledger progress.inFlight progress.world).2 }
  have aloft : waited.inFlight.Nodup := nodup
  exact (not_mem_inFlight_foldl_record env aloft).2 completion delivered

/-- A turn that goes on brings at least one more step to its end, if its wait brings
something. -/
theorem length_unsettled_turn (wellFormed : graph.WellFormed)
    (orderly : Orderly graph parallelism first)
    (flying : (env.waiting graph parallelism first).inFlight ≠ [])
    (prompt : env.Prompt graph parallelism first) :
    (unsettled graph (env.collect (env.waiting graph parallelism first))).length
      < (unsettled graph first).length := by
  have waits := reaches_waiting env wellFormed orderly
  have held := waits.orderly wellFormed orderly
  obtain ⟨completion, delivered, aloft⟩ := prompt 0 first rfl flying
  have ahead : (first.ledger.state completion.name).isTerminal = false := by
    by_contra terminal
    have ended := isTerminal_of_reaches wellFormed orderly waits (by simpa using terminal)
    rw [(held.running_iff _).mpr aloft] at ended
    cases ended
  refine length_unsettled_lt wellFormed orderly (reaches_collect wellFormed orderly flying)
    (held.tidy.mem_names_of_flying aloft) ahead ?_ ?_
  · exact mem_dispatched_of_reaches (collect_reaches env graph parallelism flying)
      (held.launched _ aloft)
  · exact not_mem_inFlight_collect env held.inFlight_nodup delivered

theorem drain_done_of_unsettled (wellFormed : graph.WellFormed)
    (orderly : Orderly graph parallelism first)
    (prompt : env.Prompt graph parallelism first)
    (few : (unsettled graph first).length < turns) :
    ∃ stand, env.drain graph parallelism turns first = (.done, stand) := by
  induction turns generalizing first with
  | zero => omega
  | succ turns ih =>
      by_cases landed : (env.waiting graph parallelism first).inFlight = []
      · exact ⟨_, by rw [drain, turn_eq wellFormed orderly, if_pos landed]⟩
      · have fewer := length_unsettled_turn wellFormed orderly landed prompt
        have turned : env.turn graph parallelism first =
            (.again, env.collect (env.waiting graph parallelism first)) := by
          rw [turn_eq wellFormed orderly, if_neg landed]
        obtain ⟨stand, done⟩ := ih
          ((reaches_collect wellFormed orderly landed).orderly wellFormed orderly)
          (prompt.after (drain_one turned)) (by omega)
        exact ⟨stand, by rw [drain, turned]; exact done⟩

/-- The loop of every run, for every world: whatever its waits bring, and whenever it
cancels.  It never breaks off, and it is left only with nothing in flight and every step
at its end; so the sweep of what was never reached changes nothing, and the run reports
just what the loop has come to.  If every wait brings something, the loop is left after at
most one turn more than the graph has steps. -/
theorem loop_left_settled (env : Environment κ ρ σ) (wellFormed : graph.WellFormed)
    (acyclic : graph.Acyclic) {limit : Int} (least : 1 ≤ limit) (register : Register ρ)
    (world : σ) :
    (∀ turns ending stand,
        env.drain graph limit.toNat turns (env.entry graph register world) =
          (ending, stand) →
          ending = .again
            ∨ ending = .done ∧ stand.inFlight = [] ∧ HasSettled graph stand
              ∧ env.skipWaiting graph neverReached stand = stand)
      ∧ (env.Prompt graph limit.toNat (env.entry graph register world) →
          ∃ stand,
            env.drain graph limit.toNat (graph.steps.length + 1)
              (env.entry graph register world) = (.done, stand)
              ∧ ∀ initial turns, declareAll initial graph.steps = (register, none) →
                  graph.steps.length < turns → env.run graph limit turns initial world =
                    (.finished (.ofSteps stand.ledger.results stand.stopped),
                      env.tell (.pipelineEnd (.ofSteps stand.ledger.results stand.stopped))
                        stand)) := by
  have orderly := orderly_entry env wellFormed limit.toNat register world
  have positive : 0 < limit.toNat := by omega
  refine ⟨fun turns ending stand drained => ?_, fun prompt => ?_⟩
  · have ends := (drain_reaches env wellFormed orderly turns).2
    rw [drained] at ends
    rcases ends with again | done
    · exact .inl again
    · cases done
      obtain ⟨landed, settled⟩ := settled_of_done wellFormed acyclic positive drained
      exact .inr ⟨rfl, landed, settled, skipWaiting_of_hasSettled env wellFormed settled⟩
  · have few : (unsettled graph (env.entry graph register world)).length ≤
        graph.steps.length :=
      (List.length_filter_le _ _).trans (List.length_map _).le
    obtain ⟨stand, done⟩ :=
      drain_done_of_unsettled wellFormed orderly prompt (Nat.lt_succ_of_le few)
    refine ⟨stand, done, fun initial turns accepted enough => ?_⟩
    have settled := (settled_of_done wellFormed acyclic positive done).2
    have drained := drain_done_add done (turns - (graph.steps.length + 1))
    rw [Nat.add_sub_cancel' enough] at drained
    rw [run_of_drain least accepted, drained]
    simp only [conclude_of_hasSettled env wellFormed settled]

theorem steady_prompt (outcome : String → Except Error Unit)
    (first : Progress ρ (List String)) :
    (steady (κ := κ) outcome).Prompt graph parallelism first := by
  intro turns top drained flying
  obtain ⟨name, aloft⟩ := List.exists_mem_of_ne_nil _ flying
  exact ⟨⟨name, outcome name⟩, List.mem_map_of_mem aloft, aloft⟩

/-- In the diamond one image fails, and after five turns nothing of it is left. -/
theorem diamond_left_settled :
    diamond.WellFormed ∧ diamond.Acyclic
      ∧ ∃ stand, (steady apiFails).drain diamond 2 5
          ((steady apiFails).entry diamond {} []) = (.done, stand)
        ∧ stand.inFlight = [] ∧ HasSettled diamond stand := by
  have wellFormed : diamond.WellFormed := by decide
  obtain ⟨leaves, bounded⟩ := loop_left_settled (steady apiFails) wellFormed diamond_acyclic
    (by decide : (1 : Int) ≤ 2) {} []
  obtain ⟨stand, done, _⟩ := bounded (steady_prompt apiFails _)
  rcases leaves _ _ _ done with again | ⟨_, landed, settled, _⟩
  · cases again
  · exact ⟨wellFormed, diamond_acyclic, stand, done, landed, settled⟩

end Environment

end BuildPipeline
