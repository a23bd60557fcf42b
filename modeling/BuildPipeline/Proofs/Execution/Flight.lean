import BuildPipeline.Proofs.Execution.Chronicle

namespace BuildPipeline

variable {κ ρ σ : Type}

namespace Environment

variable {env : Environment κ ρ σ} {graph : StepGraph κ ρ} {parallelism : Nat}
  {progress next : Progress ρ σ} {action : Action κ ρ} {landing : List Completion}
  {completion : Completion}
  {course more : List Occurrence}

namespace Occurrence

def launched? : Occurrence → Option String
  | .launched name => some name
  | .told _ | .delivered _ => none

def flight (flying : List String) : Occurrence → List String
  | .told _ => flying
  | .launched name => flying ++ [name]
  | .delivered completion => flying.erase completion.name

def IsTold : Occurrence → Prop
  | .told _ => True
  | .launched _ | .delivered _ => False

end Occurrence

def launches (course : List Occurrence) : List String :=
  course.filterMap Occurrence.launched?

def aloft (course : List Occurrence) : List String :=
  course.foldl Occurrence.flight []

theorem launches_append (course more : List Occurrence) :
    launches (course ++ more) = launches course ++ launches more :=
  List.filterMap_append

theorem aloft_append (course more : List Occurrence) :
    aloft (course ++ more) = more.foldl Occurrence.flight (aloft course) :=
  List.foldl_append

theorem flight_of_told (told : ∀ occurrence ∈ more, occurrence.IsTold)
    (flying : List String) :
    more.foldl Occurrence.flight flying = flying := by
  induction more with
  | nil => rfl
  | cons occurrence rest ih =>
      obtain ⟨now, later⟩ := List.forall_mem_cons.mp told
      cases occurrence with
      | told => exact ih later
      | launched | delivered => cases now

theorem launches_of_told (told : ∀ occurrence ∈ more, occurrence.IsTold) :
    launches more = [] := by
  apply List.filterMap_eq_nil_iff.mpr
  intro occurrence member
  have told := told occurrence member
  cases occurrence with
  | told => rfl
  | launched | delivered => cases told

theorem told_of_news (completion : Completion) (record : StepResult) :
    ∀ occurrence ∈ news completion record, occurrence.IsTold := by
  unfold news
  cases completion.outcome <;> simp [Occurrence.IsTold]

theorem length_flight_delivered (completions : List Completion) (flying : List String) :
    ((completions.map Occurrence.delivered).foldl Occurrence.flight flying).length
      ≤ flying.length := by
  induction completions generalizing flying with
  | nil => exact Nat.le_refl _
  | cons completion rest ih => exact (ih _).trans List.length_erase_le

/-- A chronicle that agrees with the coordinator on what was handed over and on what
flies, up to what a wait has brought and is not recorded yet, and in which more than there
is room for was aloft at no time. -/
structure Charted (log : σ → List Occurrence) (parallelism : Nat)
    (landing : List Completion) (progress : Progress ρ σ) : Prop where
  launched : launches (log progress.world) = progress.dispatched.reverse
  flown : aloft (log progress.world) =
    (landing.map Occurrence.delivered).foldl Occurrence.flight progress.inFlight
  room : ∀ before, before <+: log progress.world → (aloft before).length ≤ parallelism

namespace Charted

variable {log : σ → List Occurrence} {landed : List Completion}

theorem extend (charted : Charted log parallelism landing progress)
    (logged : log next.world = log progress.world ++ more)
    (launched : progress.dispatched.reverse ++ launches more = next.dispatched.reverse)
    (flown : more.foldl Occurrence.flight (aloft (log progress.world)) =
      (landed.map Occurrence.delivered).foldl Occurrence.flight next.inFlight)
    (room : ∀ before, before <+: more →
      (before.foldl Occurrence.flight (aloft (log progress.world))).length ≤ parallelism) :
    Charted log parallelism landed next where
  launched := by rw [logged, launches_append, charted.launched, launched]
  flown := by rw [logged, aloft_append, flown]
  room := by
    rintro before ⟨after, split⟩
    rw [logged] at split
    rcases List.append_eq_append_iff.mp split with ⟨rest, old, _⟩ | ⟨late, rfl, new⟩
    · exact charted.room before ⟨rest, old.symm⟩
    · rw [aloft_append]
      exact room late ⟨after, new.symm⟩

theorem told (charted : Charted log parallelism landing progress)
    (logged : log next.world = log progress.world ++ more)
    (told : ∀ occurrence ∈ more, occurrence.IsTold)
    (dispatched : next.dispatched = progress.dispatched)
    (flown : (landing.map Occurrence.delivered).foldl Occurrence.flight progress.inFlight =
      (landed.map Occurrence.delivered).foldl Occurrence.flight next.inFlight) :
    Charted log parallelism landed next := by
  refine charted.extend logged ?_ ?_ fun before leading => ?_
  · rw [launches_of_told told, dispatched, List.append_nil]
  · rw [flight_of_told told, charted.flown, flown]
  · rw [flight_of_told fun occurrence member => told occurrence (leading.subset member)]
    exact charted.room _ (List.prefix_refl _)

theorem blank (blank : log progress.world = []) (dispatched : progress.dispatched = [])
    (inFlight : progress.inFlight = []) : Charted log parallelism [] progress where
  launched := by
    rw [blank, dispatched]
    rfl
  flown := by
    rw [blank, inFlight]
    rfl
  room := by
    intro before leading
    rw [blank] at leading
    rw [List.prefix_nil.mp leading]
    exact Nat.zero_le _

variable (chronicles : env.Chronicles log)

include chronicles

theorem finish (charted : Charted log parallelism landing progress) (name : String)
    (state : StepState) (error : Option Error) :
    Charted log parallelism landing (env.finish name state error progress) :=
  charted.told (Chronicled.finish_log chronicles name state error progress)
    (by simp [Occurrence.IsTold]) rfl rfl

theorem start (charted : Charted log parallelism [] progress) (step : Step κ ρ)
    (room : progress.inFlight.length < parallelism) :
    Charted log parallelism [] (env.start progress step) := by
  have flown : aloft (log progress.world) = progress.inFlight := charted.flown
  refine charted.extend (Chronicled.start_log chronicles progress step) ?_ ?_ ?_
  · rw [dispatched_start, List.reverse_cons]
    rfl
  · rw [flown]
    rfl
  · intro before leading
    rw [flown]
    rcases List.prefix_cons_iff.mp leading with rfl | ⟨_, rfl, late⟩
    · exact Nat.le_of_lt room
    · rcases List.prefix_cons_iff.mp late with rfl | ⟨_, rfl, last⟩
      · exact Nat.le_of_lt room
      · rw [List.prefix_nil.mp last]
        simpa [Occurrence.flight, Nat.add_one_le_iff] using room

theorem decide (charted : Charted log parallelism [] progress) (quiet : IsQuiet action)
    (acts : env.Acts graph parallelism action progress next) :
    Charted log parallelism [] next := by
  cases acts with
  | skip | sweep => exact charted.finish chronicles _ _ _
  | start _ _ _ room => exact charted.start chronicles _ room
  | stop | ready => exact { charted with }
  | pause | land => cases quiet

/-- What a wait brings is aloft no more, although it is not recorded yet. -/
theorem await (charted : Charted log parallelism [] progress) :
    Charted log parallelism (env.await progress.ledger progress.inFlight progress.world).1
      { progress with
        world := (env.await progress.ledger progress.inFlight progress.world).2 } := by
  have flown : aloft (log progress.world) = progress.inFlight := charted.flown
  refine charted.extend (chronicles.await _ _ _) ?_ ?_ ?_
  · simp [launches, List.filterMap_map, Function.comp_def, Occurrence.launched?]
  · rw [flown]
  · intro before leading
    obtain ⟨back, _, rfl⟩ := List.prefix_map_iff.mp leading
    exact (length_flight_delivered back _).trans (charted.room _ (List.prefix_refl _))

theorem record (charted : Charted log parallelism (completion :: landing) progress) :
    Charted log parallelism landing (env.record progress completion) := by
  by_cases flying : completion.name ∈ progress.inFlight
  · refine charted.told (Chronicled.record_log chronicles flying)
      (told_of_news completion _) (dispatched_record env _ _) ?_
    rw [inFlight_record env flying]
    rfl
  · rw [Environment.record, if_neg flying]
    refine { charted with flown := ?_ }
    rw [charted.flown, List.map_cons, List.foldl_cons, Occurrence.flight,
      List.erase_of_not_mem flying]

theorem records (completions : List Completion)
    (charted : Charted log parallelism completions progress) :
    Charted log parallelism [] (completions.foldl env.record progress) := by
  induction completions generalizing progress with
  | nil => exact charted
  | cons completion rest ih => exact ih (charted.record chronicles)

theorem preflights (steps : List (Step κ ρ))
    (charted : Charted log parallelism landing progress) :
    Charted log parallelism landing (steps.foldl env.preflight progress) := by
  induction steps generalizing progress with
  | nil => exact charted
  | cons step rest ih =>
      refine ih ?_
      unfold preflight
      split
      · exact charted.finish chronicles _ _ _
      · exact charted

theorem tell (charted : Charted log parallelism landing progress) (event : Event) :
    Charted log parallelism landing (env.tell event progress) :=
  charted.told (chronicles.hook _ _ _) (by simp [Occurrence.IsTold]) rfl rfl

theorem keeps (graph : StepGraph κ ρ) :
    env.Keeps graph parallelism (Charted log parallelism []) where
  decide quiet _ acts charted := charted.decide chronicles quiet acts
  collect _ charted := records chronicles _ (charted.await chronicles)
  tell event _ charted := charted.tell chronicles event

theorem run (wellFormed : graph.WellFormed) {world : σ} (fresh : log world = [])
    (limit : Int) (turns : Nat) (register : Register ρ) :
    Charted log limit.toNat [] (env.run graph limit turns register world).2 := by
  have opened : ∀ declared, Charted log limit.toNat [] (opening graph declared world) :=
    fun _ => .blank fresh rfl rfl
  exact (keeps chronicles graph).run wellFormed opened
    (fun declared => ((opened declared).tell chronicles _).preflights chronicles _)
    turns register

end Charted

end Environment

end BuildPipeline
