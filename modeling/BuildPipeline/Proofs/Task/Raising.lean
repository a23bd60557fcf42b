import BuildPipeline.Proofs.Error.Chain
import BuildPipeline.Proofs.Execution.Delivery
import BuildPipeline.Proofs.Parameter.Once
import BuildPipeline.Proofs.Task.PromotionRun
import BuildPipeline.Task.Site

namespace BuildPipeline

open Document

variable {ρ σ τ : Type}

/-- The reason that a step gives for its own failure.  Waiting for the images cannot
fail. -/
def Work.reason? : Work → Option String
  | .source => some Reason.cloning
  | .image _ _ => some Reason.building
  | .imagesReady _ => none
  | .test _ _ => some Reason.testing
  | .promotion _ _ => some Reason.promoting

namespace Error

/-- An error that tells no less than the one it is wrapped around, and nothing else of its
own. -/
structure Tells (wrapped error : Error) : Prop where
  reasons : wrapped.reasons = error.reasons
  category : wrapped.category = error.category
  chain : error.chain <:+ wrapped.chain

theorem Tells.refl (error : Error) : Tells error error :=
  ⟨rfl, rfl, List.suffix_rfl⟩

theorem tells_runtime (error : Error) (message : String) :
    Tells (error.causing (.runtime message)) error where
  reasons := error.reasons_causing rfl
  category := error.category_causing rfl
  chain := error.chain_causing _ ▸ List.suffix_cons _ _

end Error

theorem prefix_intercalate (separator first : String) (rest : List String) :
    first.toList <+: (String.intercalate separator (first :: rest)).toList := by
  cases rest with
  | nil => rw [String.intercalate_singleton]
  | cons second rest =>
      rw [String.intercalate_cons_cons, String.append_assoc, String.toList_append]
      exact List.prefix_append _ _

theorem Verdict.ofOutcome_because {own : String} (error : Error)
    (apart : ¬ own.toList <+: Reason.cancelled.toList) :
    Verdict.ofOutcome (.error (error.because own)) =
      { state := .failed
        reason := String.intercalate ":" (own :: error.reasons)
        category := error.category.name } := by
  have told := Error.fullReason_of_reasons (error.reasons_because own)
  have other : String.intercalate ":" (own :: error.reasons) ≠ Reason.cancelled :=
    fun same => apart (same ▸ prefix_intercalate ":" own error.reasons)
  have reasoned : Environment.failureOf (error.because own) = error.because own :=
    if_pos rfl
  rw [Verdict.ofOutcome, reasoned, Verdict.ofError, told, if_neg other,
    error.category_because]

theorem Work.reason_apart {work : Work} {own : String} (reason : work.reason? = some own) :
    ¬ own.toList <+: Reason.cancelled.toList := by
  cases work <;> cases reason <;> decide +kernel

namespace Facilities

variable {facilities : Facilities σ} {resolving : Resolving ρ σ} {register : Register ρ}
  {found : σ → Resolved} {task : Task} {world : σ} {error : Error}

/-- Parameters that are read from a register, by resolvers of any kind. -/
structure ReadsBy (facilities : Facilities σ) (resolving : Resolving ρ σ)
    (register : Register ρ) (found : σ → Resolved) : Prop where
  answer : ∀ names world, (facilities.parameters names world).1
    = (resolving.environment register (found world) names world).1

/-- What goes wrong inside the run of a step: the cluster raises an error where the step
turns to it, or a parameter of a test cannot be read because its resolver raises one, or
because it is refused. -/
inductive Meets (facilities : Facilities σ) (resolving : Resolving ρ σ)
    (register : Register ρ) (found : σ → Resolved) (world : σ) (error : Error) : Task → Prop
  | cloning {job : Job} {refs : Refs} (about : job.refs = some refs)
      (raised :
        (facilities.client.runPod facilities.patience (Work.sourcePod job refs).document
        world).1 = .error error) :
      Meets facilities resolving register found world error ⟨job, .source⟩
  | building {job : Job} {build : ImageBuild} {commands : String}
      (raised : (facilities.client.runPod facilities.patience
        (Work.imagePod job build commands).document world).1 = .error error) :
      Meets facilities resolving register found world error ⟨job, .image build commands⟩
  | resolving {job : Job} {plan : TestPlan} {sources : List (String × String)}
      {access : Access ρ}
      (among : access ∈ resolving.readings { register, resolved := found world, world }
        plan.parameters)
      (raised : access.answer? = some (.error error)) :
      Meets facilities resolving register found world error ⟨job, .test plan sources⟩
  | testing {job : Job} {plan : TestPlan} {sources : List (String × String)}
      {environment : List (String × Value)} {later : σ}
      (read : facilities.parameters plan.parameters world = (.ok environment, later))
      (raised : (facilities.client.runPod facilities.patience
        (Work.testPod job plan environment).document later).1 = .error error) :
      Meets facilities resolving register found world error ⟨job, .test plan sources⟩
  | looking {job : Job} {configuration : Configuration} {required : List String}
      {promotion : Promotion} (active : configuration.activePromotion? = some promotion)
      (named : (configuration.promoted required).2 ≠ [])
      (raised : (facilities.client.get true (pipelineStream job.project) world).1 =
        .error error) :
      Meets facilities resolving register found world error
        ⟨job, .promotion configuration required⟩
  | copying {job : Job} {configuration : Configuration} {required : List String}
      {promotion : Promotion} {stream : Value} {later : σ}
      {targets : List (String × String)}
      (active : configuration.activePromotion? = some promotion)
      (named : (configuration.promoted required).2 ≠ [])
      (looked : facilities.client.get true (pipelineStream job.project) world =
        (.ok stream, later))
      (pulled : Mirror.targets (configuration.promoted required).1 stream promotion.registry
        = .ok targets)
      (some_targets : targets ≠ [])
      (raised : (facilities.client.runPod facilities.patience
        (Mirror.pod targets job.project).document later).1 = .error error) :
      Meets facilities resolving register found world error
        ⟨job, .promotion configuration required⟩

theorem runPod_of_raised {pod : Pod}
    (raised : (facilities.client.runPod facilities.patience pod.document world).1 =
      .error error) :
    (facilities.runPod pod world).1 = .error error := by
  unfold runPod
  split <;> rename_i ran <;> rw [ran] at raised <;> cases raised
  rfl

theorem tagging_of_raised {answer : Except Error Unit × σ} (own : String)
    (raised : answer.1 = .error error) :
    (tagging own answer).1 = .error (error.because own) := by
  rw [tagging, raised]
  rfl

theorem performTest_of_raised (reads : facilities.ReadsBy resolving register found)
    (job : Job) {plan : TestPlan} {access : Access ρ}
    (among : access ∈ resolving.readings { register, resolved := found world, world }
      plan.parameters)
    (raised : access.answer? = some (.error error)) :
    (facilities.performTest job plan world).1 = .error error := by
  have unread : (facilities.parameters plan.parameters world).1 = .error error :=
    (reads.answer _ _).trans (Resolving.environmentFrom_of_raised among raised)
  unfold performTest
  split <;> rename_i read <;> rw [read] at unread <;> cases unread
  rfl

theorem Meets.run_eq (meets : facilities.Meets resolving register found world error task)
    (reads : facilities.ReadsBy resolving register found) :
    ∃ (own : String) (wrapped : Error), task.work.reason? = some own ∧ wrapped.Tells error
      ∧ (facilities.run task world).1 = .error (wrapped.because own) := by
  cases meets with
  | @cloning job refs about raised =>
      refine ⟨_, error, rfl, .refl error, ?_⟩
      simp only [run, runSource, about]
      exact tagging_of_raised _ (runPod_of_raised raised)
  | building raised =>
      exact ⟨_, error, rfl, .refl error, tagging_of_raised _ (runPod_of_raised raised)⟩
  | resolving among raised =>
      exact ⟨_, error, rfl, .refl error,
        tagging_of_raised _ (performTest_of_raised reads _ among raised)⟩
  | testing read raised =>
      refine ⟨_, error, rfl, .refl error, tagging_of_raised _ ?_⟩
      rw [performTest, read]
      exact runPod_of_raised raised
  | @looking job configuration required promotion active named raised =>
      refine ⟨_, unresolved error, rfl, error.tells_runtime _, ?_⟩
      rw [run_promotion_of_active _ _ _ _ active, if_neg (by simpa using named)]
      refine tagging_of_raised _ ?_
      unfold promote
      split <;> rename_i looked <;> rw [looked] at raised <;> cases raised
      rfl
  | @copying job configuration required promotion stream later targets active
      named looked pulled some_targets raised =>
      refine ⟨_, notPromoted error, rfl, error.tells_runtime _, ?_⟩
      rw [run_promotion_of_active _ _ _ _ active, if_neg (by simpa using named),
        promote_eq looked pulled, copyTargets, if_neg (by simpa using some_targets)]
      refine tagging_of_raised _ ?_
      exact congrArg (Except.mapError notPromoted) (runPod_of_raised raised)

end Facilities

theorem Provider.readsBy (provider : Provider σ) (register : Register PullSpec) :
    (provider.facilities register).ReadsBy provider.resolving register Site.resolved :=
  ⟨fun _ _ => rfl⟩

namespace Environment

/-- What a step meets is still told by the error that its run raises, and the step is on
record as failed from the moment at which a wait brings its end: the reason is that of the
step and then those of the error met, and the category is that of the error met.  The
record stays so, whatever the rest of the run does. -/
theorem run_records_raised {env : Environment Task PullSpec τ}
    {graph : StepGraph Task PullSpec} (anchored : graph.Anchored) {limit : Int}
    (least : 1 ≤ limit) {register declared : Register PullSpec} {start : τ}
    (accepted : declareAll register graph.steps = (declared, none))
    {facilities : Facilities σ} {resolving : Resolving ρ σ} {seen : Register ρ}
    {found : σ → Resolved} (reads : facilities.ReadsBy resolving seen found) {task : Task}
    {world : σ} {error : Error}
    (meets : facilities.Meets resolving seen found world error task) {turns : Nat}
    (brings : env.Brings graph limit.toNat (env.entry graph declared start) turns
      ⟨task.step.name, (facilities.run task world).1⟩) :
    ∃ (own : String) (raised : Error), task.work.reason? = some own
      ∧ (facilities.run task world).1 = .error raised ∧ error.chain <:+ raised.chain
      ∧ ∀ more, turns < more →
          ∃ ending stand, env.run graph limit more register start = (ending, stand)
            ∧ (stand.ledger.result task.step.name).verdict =
                { state := .failed
                  reason := String.intercalate ":" (own :: error.reasons)
                  category := error.category.name }
            ∧ ∀ result, ending = .finished result →
              result.steps = stand.ledger.results := by
  obtain ⟨own, wrapped, reason, tells, ran⟩ := meets.run_eq reads
  have behind : error.chain <:+ (wrapped.because own).chain := by
    rw [wrapped.chain_because]
    exact tells.chain.trans (List.suffix_cons _ _)
  refine ⟨own, _, reason, ran, behind, fun more later => ?_⟩
  obtain ⟨ending, stand, ended, landed, steps⟩ :=
    run_records anchored least accepted brings later
  refine ⟨ending, stand, ended, landed.verdict.trans ?_, steps⟩
  rw [ran, Verdict.ofOutcome_because wrapped (Work.reason_apart reason), tells.reasons,
    tells.category]

def silence : Error where
  head := .transient "api server does not answer" none
  causes := [.reasoned "reading_stream" "no route to host"]

def silent : Provider Unit where
  client :=
    { get := fun _ _ world => (.error silence, world)
      create := fun _ world => (.error silence, world)
      pause := fun world => (false, world) }
  cancelled _ := false
  patience := 0

def cliRelease : Configuration where
  images := [{ target := "cli" }]
  promotion := some { project := "ocp", name := "4.8" }

def cliPromotion : Task := ⟨{ project := "ci" }, .promotion cliRelease []⟩

def promotionAlone : StepGraph Task PullSpec where
  steps := [cliPromotion.step]
  edges := []

theorem silent_brings :
    silent.environment.Brings promotionAlone 1
      (silent.environment.entry promotionAlone {} { cluster := () }) 0
      ⟨cliPromotion.step.name,
        ((silent.facilities {}).run cliPromotion { cluster := () }).1⟩ := by
  have wellFormed : promotionAlone.WellFormed := by decide +kernel
  have orderly := orderly_entry silent.environment wellFormed 1 {} { cluster := () }
  refine ⟨_, _, rfl, (turn_eq wellFormed orderly).trans (if_neg (by decide +kernel)),
    by decide +kernel, ?_⟩
  with_unfolding_all rfl

theorem silence_recorded :
    ∃ ending stand, silent.environment.run promotionAlone 1 2 {} { cluster := () } =
      (ending, stand)
      ∧ (stand.ledger.result Work.promotionName).verdict =
          { state := .failed
            reason := "promoting_images:reading_stream"
            category := "infrastructure" } := by
  have wellFormed : promotionAlone.WellFormed := by decide +kernel
  obtain ⟨own, raised, reason, -, -, recorded⟩ := run_records_raised wellFormed.anchored
    (by decide : (1 : Int) ≤ 1)
    (Prod.ext rfl rfl : declareAll {} promotionAlone.steps = ({}, none))
    (silent.readsBy {}) (.looking rfl (by decide +kernel) rfl) silent_brings
  cases reason
  obtain ⟨ending, stand, ran, verdict, -⟩ := recorded 2 (by decide)
  exact ⟨ending, stand, ran, verdict⟩

end Environment

end BuildPipeline
