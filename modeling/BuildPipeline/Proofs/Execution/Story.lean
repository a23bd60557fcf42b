import BuildPipeline.Proofs.Execution.Discipline
import BuildPipeline.Report.Sink

namespace BuildPipeline

variable {κ ρ σ : Type}

namespace Environment

/-- What can be seen of a run from outside: what its hook is told, which steps are handed
over to run, and how these come back. -/
inductive Occurrence where
  | told (event : Event)
  | launched (name : String)
  | delivered (completion : Completion)

namespace Occurrence

def subject? : Occurrence → Option String
  | .told event => event.scope?
  | .launched name => some name
  | .delivered completion => some completion.name

end Occurrence

def about (name : String) (course : List Occurrence) : List Occurrence :=
  course.filter fun occurrence => occurrence.subject? == some name

theorem about_append (name : String) (course more : List Occurrence) :
    about name (course ++ more) = about name course ++ about name more :=
  List.filter_append ..

theorem about_self {name : String} {course : List Occurrence}
    (concern : ∀ occurrence ∈ course, occurrence.subject? = some name) :
    about name course = course :=
  List.filter_eq_self.mpr fun occurrence member => by simp [concern occurrence member]

theorem about_of_ne {name other : String} {course : List Occurrence}
    (concern : ∀ occurrence ∈ course, occurrence.subject? = some name) (ne : other ≠ name) :
    about other course = [] :=
  List.filter_eq_nil_iff.mpr fun occurrence member => by
    simp [concern occurrence member, ne.symm]

def returns (name : String) (completions : List Completion) : List Completion :=
  completions.filter fun completion => completion.name == name

theorem about_delivered (name : String) (completions : List Completion) :
    about name (completions.map .delivered) =
      (returns name completions).map .delivered := by
  rw [about, returns, List.filter_map]
  congr 2

theorem returns_eq_nil {name : String} {completions : List Completion}
    (absent : name ∉ completions.map (·.name)) : returns name completions = [] := by
  apply List.filter_eq_nil_iff.mpr
  intro completion member same
  exact absent (List.mem_map.mpr ⟨completion, member, by simpa using same⟩)

/-- The story of one step, up to what is recorded of it: it waits, or has ended without
being started, or runs, or has come back and ended well or badly.  `landing` is what a
wait has brought and the coordinator has not recorded yet. -/
inductive Account (landing : List Completion) (name : String) (record : StepResult) :
    List Occurrence → Prop
  | waiting (state : record.state.isWaiting = true) : Account landing name record []
  | unstarted (state : record.state = .failed ∨ record.state = .skipped) :
      Account landing name record [.told (.stepEnd name record)]
  | running (state : record.state = .running) :
      Account landing name record
        ([.told (.stepStart name), .launched name] ++ (returns name landing).map .delivered)
  | succeeded (state : record.state = .succeeded) :
      Account landing name record
        [.told (.stepStart name), .launched name, .delivered ⟨name, .ok ()⟩,
          .told (.stepEnd name record)]
  | failed (error : Error) (state : record.state = .failed)
      (reported : record.error = some (failureOf error)) :
      Account landing name record
        [.told (.stepStart name), .launched name, .delivered ⟨name, .error error⟩,
          .told (.failure name (failureOf error)), .told (.stepEnd name record)]

namespace Account

variable {landing landed : List Completion} {name : String} {record : StepResult}
  {story : List Occurrence}

theorem eq_nil (account : Account landing name record story)
    (waiting : record.state.isWaiting = true) : story = [] := by
  cases account with
  | waiting => rfl
  | unstarted state => rcases state with state | state <;> simp [state] at waiting
  | running state | succeeded state | failed _ state => simp [state] at waiting

theorem eq_running (account : Account landing name record story)
    (running : record.state = .running) :
    story = [.told (.stepStart name), .launched name]
      ++ (returns name landing).map .delivered := by
  cases account with
  | waiting state => simp [running] at state
  | unstarted state => simp [running] at state
  | running => rfl
  | succeeded state | failed _ state => simp [running] at state

theorem ended (account : Account landing name record story)
    (terminal : record.state.isTerminal = true) : .told (.stepEnd name record) ∈ story := by
  cases account with
  | waiting state => simp [StepState.isTerminal_of_isWaiting state] at terminal
  | running state => simp [state, StepState.isTerminal] at terminal
  | unstarted | succeeded | failed => simp

theorem relanded (account : Account landing name record story)
    (same : returns name landed = returns name landing) :
    Account landed name record story := by
  cases account with
  | waiting state => exact .waiting state
  | unstarted state => exact .unstarted state
  | running state =>
      rw [← same]
      exact .running state
  | succeeded state => exact .succeeded state
  | failed error state reported => exact .failed error state reported

theorem await (account : Account [] name record story)
    (idle : record.state ≠ .running → returns name landing = []) :
    Account landing name record (story ++ (returns name landing).map .delivered) := by
  cases account with
  | running state => exact .running state
  | waiting state =>
      rw [idle (by rintro running; simp [running] at state)]
      exact .waiting state
  | unstarted state =>
      rw [idle (by rintro running; simp [running] at state)]
      exact .unstarted state
  | succeeded state =>
      rw [idle (by simp [state])]
      exact .succeeded state
  | failed error state reported =>
      rw [idle (by simp [state])]
      exact .failed error state reported

theorem told_end (account : Account landing name record story) {entry : StepResult}
    (told : .told (.stepEnd name entry) ∈ story) :
    entry = record ∧ record.state.isTerminal = true := by
  cases account with
  | waiting => cases told
  | unstarted state =>
      refine ⟨by simpa using told, ?_⟩
      rcases state with state | state <;> simp [state, StepState.isTerminal]
  | running => simp at told
  | succeeded state => exact ⟨by simpa using told, by simp [state, StepState.isTerminal]⟩
  | failed _ state => exact ⟨by simpa using told, by simp [state, StepState.isTerminal]⟩

end Account

def news (completion : Completion) (record : StepResult) : List Occurrence :=
  match completion.outcome with
  | .ok _ => [.told (.stepEnd completion.name record)]
  | .error error =>
      [.told (.failure completion.name (failureOf error)),
        .told (.stepEnd completion.name record)]

theorem news_concern (completion : Completion) (record : StepResult) :
    ∀ occurrence ∈ news completion record, occurrence.subject? = some completion.name := by
  unfold news
  cases completion.outcome <;> simp [Occurrence.subject?, Event.scope?]

theorem not_start_mem_news (completion : Completion) (record : StepResult) (name : String) :
    .told (.stepStart name) ∉ news completion record := by
  unfold news
  cases completion.outcome <;> simp

theorem end_mem_news {completion : Completion} {record entry : StepResult} {name : String}
    (told : .told (.stepEnd name entry) ∈ news completion record) :
    name = completion.name ∧ entry = record := by
  unfold news at told
  cases outcome : completion.outcome <;> simpa [outcome] using told

theorem Account.landed (landing : List Completion) (completion : Completion)
    (before : StepResult) (moment : Instant) :
    let record :=
      before.ended moment (stateOf completion.outcome) (errorOf? completion.outcome)
    Account landing completion.name record
      ([.told (.stepStart completion.name), .launched completion.name,
        .delivered completion] ++ news completion record) := by
  obtain ⟨name, outcome⟩ := completion
  cases outcome with
  | ok => exact .succeeded rfl
  | error error => exact .failed error rfl rfl

/-- Before a step is told to start, all that it depends on has been told to have ended
well. -/
def Freed (graph : StepGraph κ ρ) (course : List Occurrence) : Prop :=
  ∀ before after name, course = before ++ .told (.stepStart name) :: after →
    ∀ dependency ∈ graph.dependencies name, ∃ entry : StepResult,
      .told (.stepEnd dependency entry) ∈ before ∧ entry.state = .succeeded

/-- A course of events that agrees with what is recorded: each step has its story, and no
step but those of the graph is spoken of. -/
structure Recounts (graph : StepGraph κ ρ) (landing : List Completion)
    (progress : Progress ρ σ) (course : List Occurrence) : Prop where
  concern : ∀ occurrence ∈ course, ∃ name ∈ graph.names, occurrence.subject? = some name
  account : ∀ name, Account landing name (progress.ledger.result name) (about name course)
  freed : Freed graph course

variable {graph : StepGraph κ ρ} {progress next : Progress ρ σ}
  {landing landed : List Completion} {course more : List Occurrence} {name : String}

theorem Freed.append (freed : Freed graph course)
    (begins : ∀ name, .told (.stepStart name) ∈ more →
      ∀ dependency ∈ graph.dependencies name,
      ∃ entry : StepResult, .told (.stepEnd dependency entry) ∈ course
        ∧ entry.state = .succeeded) :
    Freed graph (course ++ more) := by
  intro before after name split dependency needed
  -- The step was told to start either long since or just now.
  rcases List.append_eq_append_iff.mp split with ⟨begun, rfl,
    now⟩ | ⟨_ | ⟨_, rest⟩, rfl, now⟩
  · obtain ⟨entry, told, succeeded⟩ := begins name (by simp [now]) dependency needed
    exact ⟨entry, List.mem_append_left _ told, succeeded⟩
  · obtain ⟨entry, told, succeeded⟩ :=
      begins name (by simp [show more = _ from now.symm]) dependency needed
    exact ⟨entry, by simpa using told, succeeded⟩
  · obtain ⟨rfl, rfl⟩ := List.cons.inj now
    exact freed before rest name rfl dependency needed

namespace Recounts

theorem told_succeeded (recounts : Recounts graph landing progress course)
    (succeeded : progress.ledger.state name = .succeeded) :
    ∃ entry : StepResult, .told (.stepEnd name entry) ∈ course
      ∧ entry.state = .succeeded := by
  have terminal : (progress.ledger.result name).state.isTerminal = true := by
    rw [show (progress.ledger.result name).state = .succeeded from succeeded]
    rfl
  have told := (recounts.account name).ended terminal
  exact ⟨_, (List.mem_filter.mp told).1, succeeded⟩

theorem extend (recounts : Recounts graph landing progress course)
    (present : name ∈ graph.names)
    (concern : ∀ occurrence ∈ more, occurrence.subject? = some name)
    (others : ∀ other, other ≠ name → next.ledger.result other =
      progress.ledger.result other)
    (returned : ∀ other, other ≠ name → returns other landed = returns other landing)
    (own : ∀ {story}, Account landing name (progress.ledger.result name) story →
      Account landed name (next.ledger.result name) (story ++ more))
    (free : .told (.stepStart name) ∈ more → ∀ dependency ∈ graph.dependencies name,
      progress.ledger.state dependency = .succeeded) :
    Recounts graph landed next (course ++ more) where
  concern := by
    intro occurrence member
    rcases List.mem_append.mp member with old | new
    · exact recounts.concern occurrence old
    · exact ⟨name, present, concern occurrence new⟩
  account := by
    intro other
    rw [about_append]
    by_cases here : other = name
    · subst here
      rw [about_self concern]
      exact own (recounts.account other)
    · rw [about_of_ne concern here, List.append_nil, others other here]
      exact (recounts.account other).relanded (returned other here)
  freed := by
    apply recounts.freed.append
    intro other started dependency needed
    obtain rfl : other = name := Option.some.inj (concern _ started)
    exact recounts.told_succeeded (free started dependency needed)

theorem await (recounts : Recounts graph [] progress course)
    (tidy : Tidy graph.names progress) {completions : List Completion}
    (aloft : ∀ completion ∈ completions, completion.name ∈ progress.inFlight) (world : σ) :
    Recounts graph completions { progress with world }
      (course ++ completions.map .delivered) where
  concern := by
    intro occurrence member
    rcases List.mem_append.mp member with old | new
    · exact recounts.concern occurrence old
    · obtain ⟨completion, came, rfl⟩ := List.mem_map.mp new
      exact ⟨completion.name, tidy.mem_names_of_flying (aloft completion came), rfl⟩
  account := by
    intro name
    rw [about_append, about_delivered]
    apply (recounts.account name).await
    intro idle
    apply returns_eq_nil
    intro came
    obtain ⟨completion, member, rfl⟩ := List.mem_map.mp came
    exact idle ((tidy.running_iff _).mpr (aloft completion member))
  freed := recounts.freed.append fun name started => by simp at started

end Recounts

end Environment

end BuildPipeline
