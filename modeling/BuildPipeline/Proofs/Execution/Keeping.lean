import BuildPipeline.Proofs.Execution.Loop

namespace BuildPipeline

variable {κ ρ σ : Type}

namespace Environment

variable {env : Environment κ ρ σ} {graph : StepGraph κ ρ} {parallelism : Nat}
  {progress next : Progress ρ σ}

def IsQuiet : Action κ ρ → Prop
  | .pause | .land _ => False
  | _ => True

theorem succeeded_of_quiet (wellFormed : graph.WellFormed)
    (orderly : Orderly graph parallelism progress) {action : Action κ ρ}
    (quiet : IsQuiet action) (acts : env.Acts graph parallelism action progress next)
    {name : String} (succeeded : next.ledger.state name = .succeeded) :
    progress.ledger.state name = .succeeded := by
  by_cases subject : action.subject? = some name
  · exfalso
    cases acts with
    | skip ordered | sweep ordered =>
        cases subject
        rw [Ledger.state, result_finish_self env _ _ (orderly.present wellFormed ordered),
          StepResult.state_ended] at succeeded
        cases succeeded
    | ready ordered =>
        cases subject
        rw [Ledger.state, Ledger.result_ready_self
          (orderly.present wellFormed ordered)] at succeeded
        cases succeeded
    | start ordered =>
        cases subject
        rw [Ledger.state, result_start_self env
          (orderly.present wellFormed ordered)] at succeeded
        cases succeeded
    | stop => cases subject
    | pause | land => cases quiet
  · rwa [acts.state_of_ne subject] at succeeded

def Unrun (progress : Progress ρ σ) (name : String) : Prop :=
  name ∈ progress.inFlight ∨ name ∉ progress.dispatched

theorem unrun_of_quiet (orderly : Orderly graph parallelism progress) {action : Action κ ρ}
    (quiet : IsQuiet action) (acts : env.Acts graph parallelism action progress next)
    {name : String} (unrun : Unrun next name) : Unrun progress name := by
  cases acts with
  | @start _ step _ _ ready _ =>
      have fresh := orderly.tidy.not_dispatched_of_isWaiting (isReady_iff.mp ready).1
      rcases unrun with flying | unlaunched
      · rcases List.mem_append.mp flying with old | new
        · exact Or.inl old
        · rw [List.mem_singleton.mp new]
          exact Or.inr fresh
      · exact Or.inr fun old => unlaunched (List.mem_cons_of_mem _ old)
  | skip | stop | sweep | ready => exact unrun
  | pause | land => cases quiet

theorem unrun_record (orderly : Orderly graph parallelism progress)
    {completion : Completion} (flying : completion.name ∈ progress.inFlight) {name : String}
    (unrun : Unrun (env.record progress completion) name) :
    name ≠ completion.name ∧ Unrun progress name := by
  rcases unrun with aloft | unlaunched
  · rw [inFlight_record env flying] at aloft
    obtain ⟨ne, old⟩ := orderly.inFlight_nodup.mem_erase_iff.mp aloft
    exact ⟨ne, Or.inl old⟩
  · rw [dispatched_record] at unlaunched
    refine ⟨?_, Or.inr unlaunched⟩
    rintro rfl
    exact unlaunched (orderly.launched _ flying)

section Turns

variable {holds : Progress ρ σ → Prop}
  (wait : ∀ {progress}, Orderly graph parallelism progress → holds progress →
    holds (env.waiting graph parallelism progress))
  (collect : ∀ {progress}, Orderly graph parallelism progress → progress.inFlight ≠ [] →
    holds progress → holds (env.collect progress))

include wait collect

theorem drain_keeps (wellFormed : graph.WellFormed)
    (orderly : Orderly graph parallelism progress) (start : holds progress) (turns : Nat) :
    holds (env.drain graph parallelism turns progress).2 := by
  induction turns generalizing progress with
  | zero => exact start
  | succ turns ih =>
      have waited := wait orderly start
      have calm := (reaches_waiting env wellFormed orderly).orderly wellFormed orderly
      rw [drain, turn_eq wellFormed orderly]
      by_cases landed : (env.waiting graph parallelism progress).inFlight = []
      · rw [if_pos landed]
        exact waited
      · rw [if_neg landed]
        exact ih ((reaches_collect wellFormed orderly landed).orderly wellFormed orderly)
          (collect calm landed waited)

end Turns

/-- A run either breaks off before it begins, or it keeps what holds at its entry. -/
theorem run_keeps (holds : Progress ρ σ → Prop) (parallelism : Int)
    (wait : ∀ {progress}, Orderly graph parallelism.toNat progress → holds progress →
      holds (env.waiting graph parallelism.toNat progress))
    (collect : ∀ {progress}, Orderly graph parallelism.toNat progress →
      progress.inFlight ≠ [] →
      holds progress → holds (env.collect progress))
    (conclude : ∀ {progress}, Orderly graph parallelism.toNat progress →
      progress.inFlight = [] →
      holds progress → holds (env.conclude graph progress).2)
    (wellFormed : graph.WellFormed) (turns : Nat) (register : Register ρ) (world : σ) :
    (∃ declared, (env.run graph parallelism turns register world).2 =
      opening graph declared world)
      ∨ ∃ declared, declareAll register graph.steps = (declared, none)
        ∧ (holds (env.entry graph declared world) →
            holds (env.run graph parallelism turns register world).2) := by
  rcases run_stands env wellFormed parallelism turns register world with
    ⟨failure, declared, _, eq⟩ | ⟨declared, answer, reached, stands⟩
  · exact Or.inl ⟨declared, congrArg Prod.snd eq⟩
  · refine Or.inr ⟨declared, answer, fun entry => ?_⟩
    have orderly := orderly_entry env wellFormed parallelism.toNat declared world
    have kept := drain_keeps wait collect wellFormed orderly entry turns
    rcases stands with ⟨again, eq⟩ | ⟨done, eq⟩
    · rw [eq]
      rwa [again] at kept
    · rw [eq]
      rw [done] at kept
      have reaches := (drain_reaches env wellFormed orderly turns).1
      rw [done] at reaches
      exact conclude (reaches.orderly wellFormed orderly) (drain_landed done) kept

section Kept

variable {holds : Progress ρ σ → Prop}
  (decide : ∀ {action progress next}, IsQuiet action → Orderly graph parallelism progress →
    env.Acts graph parallelism action progress next → holds progress → holds next)

include decide

theorem kept_of_reaches (wellFormed : graph.WellFormed) {allowed : Action κ ρ → Prop}
    (quiet : ∀ action, allowed action → IsQuiet action)
    (orderly : Orderly graph parallelism progress)
    (reaches : env.Reaches graph parallelism allowed progress next)
    (start : holds progress) : holds next :=
  (reaches.preserves (fun later => Orderly graph parallelism later ∧ holds later)
    (fun permitted acts kept =>
      ⟨kept.1.acts wellFormed acts, decide (quiet _ permitted) kept.1 acts kept.2⟩)
    ⟨orderly, start⟩).2

theorem kept_waiting (wellFormed : graph.WellFormed)
    (orderly : Orderly graph parallelism progress) (start : holds progress) :
    holds (env.waiting graph parallelism progress) := by
  refine kept_of_reaches decide wellFormed ?_ orderly
    (waiting_reaches wellFormed orderly) start
  rintro action (skip | halt | launch) <;> cases action <;> trivial

theorem kept_drain (wellFormed : graph.WellFormed)
    (collect : ∀ {progress}, Orderly graph parallelism progress → holds progress →
      holds (env.collect progress))
    (orderly : Orderly graph parallelism progress) (start : holds progress) (turns : Nat) :
    holds (env.drain graph parallelism turns progress).2 :=
  drain_keeps (kept_waiting decide wellFormed)
    (fun calm _ => collect calm) wellFormed orderly start turns

end Kept

/-- What neither a decision nor a wait and what it delivers can change. -/
structure Keeps (env : Environment κ ρ σ) (graph : StepGraph κ ρ) (parallelism : Nat)
    (holds : Progress ρ σ → Prop) : Prop where
  decide : ∀ {action progress next}, IsQuiet action → Orderly graph parallelism progress →
    env.Acts graph parallelism action progress next → holds progress → holds next
  collect : ∀ {progress}, Orderly graph parallelism progress → holds progress →
    holds (env.collect progress)
  tell : ∀ event progress, holds progress → holds (env.tell event progress)

namespace Keeps

variable {holds : Progress ρ σ → Prop}

theorem of_land (wellFormed : graph.WellFormed)
    (decide : ∀ {action progress next}, IsQuiet action →
      Orderly graph parallelism progress →
      env.Acts graph parallelism action progress next → holds progress → holds next)
    (wait : ∀ progress, holds progress →
      holds { progress with
        world := (env.await progress.ledger progress.inFlight progress.world).2 })
    (land : ∀ {waiting progress completion}, Orderly graph parallelism waiting →
      holds waiting →
      completion ∈ (env.await waiting.ledger waiting.inFlight waiting.world).1 →
      completion.name ∈ waiting.inFlight → Orderly graph parallelism progress →
      completion.name ∈ progress.inFlight → holds progress →
        holds (env.record progress completion))
    (tell : ∀ event progress, holds progress → holds (env.tell event progress)) :
    env.Keeps graph parallelism holds where
  decide := decide
  tell := tell
  collect := by
    intro waiting calm start
    have landing : ∀ (completions : List Completion) (progress : Progress ρ σ),
        (∀ completion ∈ completions,
          completion ∈ (env.await waiting.ledger waiting.inFlight waiting.world).1) →
        progress.inFlight ⊆ waiting.inFlight → Orderly graph parallelism progress →
        holds progress → holds (completions.foldl env.record progress) := by
      intro completions
      induction completions with
      | nil => exact fun _ _ _ _ kept => kept
      | cons completion rest ih =>
          intro progress delivered aloft orderly kept
          obtain ⟨first, later⟩ := List.forall_mem_cons.mp delivered
          by_cases flying : completion.name ∈ progress.inFlight
          · refine ih _ later ?_ (orderly.acts wellFormed (.land flying))
              (land calm start first (aloft flying) orderly flying kept)
            rw [inFlight_record env flying]
            exact fun name flies => aloft (List.mem_of_mem_erase flies)
          · rw [List.foldl_cons, record, if_neg flying]
            exact ih progress later aloft orderly kept
    exact landing _ _ (fun _ => id) (List.Subset.refl _) { calm with } (wait waiting start)

theorem conclude (keeps : env.Keeps graph parallelism holds) (wellFormed : graph.WellFormed)
    (orderly : Orderly graph parallelism progress) (landed : progress.inFlight = [])
    (kept : holds progress) : holds (env.conclude graph progress).2 := by
  refine keeps.tell _ _ (kept_of_reaches keeps.decide wellFormed ?_ orderly
    (skipWaiting_reaches (Or.inr ⟨landed, rfl⟩)) kept)
  rintro action ⟨step, rfl⟩
  trivial

theorem run_of_entry {parallelism : Int} (keeps : env.Keeps graph parallelism.toNat holds)
    (wellFormed : graph.WellFormed) (turns : Nat) (register : Register ρ) (world : σ) :
    (∃ declared, (env.run graph parallelism turns register world).2 =
      opening graph declared world)
      ∨ ∃ declared, declareAll register graph.steps = (declared, none)
        ∧ (holds (env.entry graph declared world) →
            holds (env.run graph parallelism turns register world).2) :=
  run_keeps holds parallelism (kept_waiting keeps.decide wellFormed)
    (fun calm _ => keeps.collect calm) (keeps.conclude wellFormed) wellFormed
    turns register world

theorem run {parallelism : Int} (keeps : env.Keeps graph parallelism.toNat holds)
    (wellFormed : graph.WellFormed) {world : σ}
    (opening : ∀ register, holds (opening graph register world))
    (entry : ∀ register, holds (env.entry graph register world)) (turns : Nat)
    (register : Register ρ) : holds (env.run graph parallelism turns register world).2 := by
  rcases keeps.run_of_entry wellFormed turns register world with
    ⟨declared, eq⟩ | ⟨declared, _, kept⟩
  · exact eq ▸ opening declared
  · exact kept (entry declared)

end Keeps

namespace Logs

variable {log : σ → List String}

theorem keeps (logs : env.Logs log) (wellFormed : graph.WellFormed) (past : List String) :
    env.Keeps graph parallelism fun progress =>
      log progress.world = progress.dispatched ++ past := by
  refine .of_land wellFormed ?_ ?_ ?_ ?_
  · intro action progress next _ _ acts logged
    rw [logs.acts acts, acts.dispatched, logged, List.append_assoc]
  · intro progress logged
    exact (logs.await _ _ _).trans logged
  · intro waiting progress completion _ _ _ _ _ _ logged
    rw [dispatched_record, ← logged]
    exact view_record logs.hook _ _
  · intro event progress logged
    exact (logs.hook _ _ _).trans logged

theorem run_dispatched (logs : env.Logs log) (wellFormed : graph.WellFormed) (limit : Int)
    (turns : Nat) (register : Register ρ) (world : σ) :
    log (env.run graph limit turns register world).2.world =
      (env.run graph limit turns register world).2.dispatched ++ log world :=
  (logs.keeps wellFormed (log world)).run wellFormed (fun _ => rfl)
    (fun declared => by
      rw [view_entry logs.hook, (entry_eq env wellFormed declared world).2.1,
        List.nil_append])
    turns register

end Logs

end Environment

end BuildPipeline
