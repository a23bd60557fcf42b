import BuildPipeline.Proofs.Parameter.Access
import BuildPipeline.Proofs.Table

namespace BuildPipeline

open Document

variable {ρ σ : Type}

inductive Call (ρ : Type) where
  | declare (producer : String) (provides : List (String × ρ))
  | markSucceeded (producer : String)
  | has (name : String)
  | get (name : String)
  | environment (names : List Value)

def Usage.after (usage : Usage ρ σ) (found : Resolved × σ) : Usage ρ σ :=
  { usage with resolved := found.1, world := found.2 }

namespace Resolving

section Calls

variable (resolving : Resolving ρ σ)

def perform (usage : Usage ρ σ) : Call ρ → Usage ρ σ
  | .declare producer provides =>
      { usage with register := (usage.register.declare producer provides).1 }
  | .markSucceeded producer =>
      { usage with register := usage.register.markSucceeded producer }
  | .has _ => usage
  | .get name =>
      usage.after (resolving.get usage.register usage.resolved name usage.world).2
  | .environment names =>
      usage.after (resolving.environment usage.register usage.resolved names usage.world).2

/-- The accesses that a call consists of: two for a name that can be read, one for a name
that cannot, and for several names those of each up to the first that is not read. -/
def reading (usage : Usage ρ σ) (name : Value) : List (Access ρ) :=
  match usage.register.ticket name with
  | .error failure => [.refuse name failure]
  | .ok ticket =>
      [.locate ticket.name ticket.place,
        .read ticket.name ticket.place ticket.resolver
          (.of (usage.resolved.get? ticket.place)
          (resolving.valueAt usage.resolved ticket.place ticket.resolver usage.world).1)]

def readings (usage : Usage ρ σ) : List Value → List (Access ρ)
  | [] => []
  | name :: rest =>
      resolving.reading usage name ++
        match resolving.getNamed usage.register usage.resolved name usage.world with
        | (.error _, _) => []
        | (.ok _, found) => readings (usage.after found) rest

def accesses (usage : Usage ρ σ) : Call ρ → List (Access ρ)
  | .declare producer provides => [.declare (usage.register.taken producer provides)]
  | .markSucceeded producer => [.succeed producer]
  | .has name => [.has name (usage.register.has name)]
  | .get name => resolving.reading usage (.string name)
  | .environment names => resolving.readings usage names

def performAll (usage : Usage ρ σ) : List (Call ρ) → Usage ρ σ × List (Access ρ)
  | [] => (usage, [])
  | call :: rest =>
      let (last, history) := performAll (resolving.perform usage call) rest
      (last, resolving.accesses usage call ++ history)

end Calls

variable {resolving : Resolving ρ σ} {start usage : Usage ρ σ} {history : List (Access ρ)}

theorem getNamed_eq (resolving : Resolving ρ σ) (register : Register ρ)
    (resolved : Resolved) (name : Value) (world : σ) :
    resolving.getNamed register resolved name world =
      match register.ticket name with
      | .error failure => (.error (.ofFailure failure), resolved, world)
      | .ok ticket => resolving.valueAt resolved ticket.place ticket.resolver world := by
  cases name with
  | string text =>
      rw [getNamed, get, Register.ticket]
      cases register.locate text <;> rfl
  | _ => rfl

/-- A reader with no one in between passes both locks. -/
theorem Trace.reading (trace : resolving.Trace start history usage) (name : Value) :
    resolving.Trace start (history ++ resolving.reading usage name)
      (usage.after
        (resolving.getNamed usage.register usage.resolved name usage.world).2) := by
  rw [getNamed_eq, Resolving.reading]
  cases located : usage.register.ticket name with
  | error failure => exact trace.snoc (.refuse located)
  | ok ticket =>
      have taken := trace.snoc (.locate located)
      have read := taken.snoc (.read (List.nil_append _).symm rfl)
      rwa [List.append_assoc] at read

theorem Trace.readings (trace : resolving.Trace start history usage) (names : List Value)
    (values : List (String × Value)) :
    resolving.Trace start (history ++ resolving.readings usage names)
      (usage.after
        (resolving.environmentFrom usage.register values usage.resolved names
          usage.world).2) := by
  induction names generalizing usage history values with
  | nil =>
      rw [Resolving.readings, List.append_nil]
      exact trace
  | cons name rest ih =>
      have first := trace.reading name
      rw [Resolving.readings, environmentFrom]
      rcases read : resolving.getNamed usage.register usage.resolved name usage.world with
        ⟨_ | value, found⟩
      · rw [read] at first
        rw [List.append_nil]
        exact first
      · rw [read] at first
        rw [← List.append_assoc]
        exact ih first _

theorem Trace.performAll (trace : resolving.Trace start history usage)
    (calls : List (Call ρ)) :
    resolving.Trace start (history ++ (resolving.performAll usage calls).2)
      (resolving.performAll usage calls).1 := by
  induction calls generalizing usage history with
  | nil =>
      rw [Resolving.performAll, List.append_nil]
      exact trace
  | cons call rest ih =>
      have first : resolving.Trace start (history ++ resolving.accesses usage call)
          (resolving.perform usage call) := by
        cases call with
        | declare producer provides => exact trace.snoc (.declare producer provides)
        | markSucceeded producer => exact trace.snoc (.succeed producer)
        | has name => exact trace.snoc (.has name)
        | get name => exact trace.reading (.string name)
        | environment names => exact trace.readings names []
      rw [Resolving.performAll, ← List.append_assoc]
      exact ih first

theorem answer_valueAt (resolving : Resolving ρ σ) (resolved : Resolved) (place : Nat)
    (resolver : ρ) (world : σ) :
    (Reading.of (resolved.get? place)
        (resolving.valueAt resolved place resolver world).1).answer
      = (resolving.valueAt resolved place resolver world).1 := by
  unfold valueAt
  cases resolved.get? place with
  | some value => rfl
  | none => rcases resolving.resolve resolver world with ⟨_ | value, later⟩ <;> rfl

theorem answer_reading (resolving : Resolving ρ σ) (usage : Usage ρ σ) (name : Value) :
    (resolving.reading usage name).filterMap Access.answer?
      = [(resolving.getNamed usage.register usage.resolved name usage.world).1] := by
  rw [getNamed_eq, Resolving.reading]
  cases usage.register.ticket name with
  | error failure => rfl
  | ok ticket => exact congrArg (fun answer => [answer]) (answer_valueAt _ _ _ _ _)

theorem exists_reading {name : Value} {value : Value} {found : Resolved × σ}
    (read : resolving.getNamed usage.register usage.resolved name usage.world =
      (.ok value, found)) :
    ∃ place resolver reading, .read name.text place resolver reading ∈
      resolving.reading usage name
      ∧ reading.answer = .ok value := by
  have answer := answer_reading resolving usage name
  rw [read] at answer
  rw [getNamed_eq] at read
  rw [Resolving.reading] at answer ⊢
  cases located : usage.register.ticket name with
  | error failure =>
      rw [located] at read
      cases read
  | ok ticket =>
      obtain ⟨rfl, _⟩ := Register.ticket_eq_ok located
      rw [located] at answer
      exact ⟨_, _, _, .tail _ (.head _), (List.cons.inj answer).1⟩

theorem exists_reading_of_environmentFrom {names : List Value}
    {values table : List (String × Value)}
    (answered : (resolving.environmentFrom usage.register values usage.resolved names
      usage.world).1 = .ok table) {key : String} {value : Value}
        (member : (key, value) ∈ table) :
    (key, value) ∈ values ∨ ∃ place resolver reading,
      .read key place resolver reading ∈ resolving.readings usage names
        ∧ reading.answer = .ok value := by
  induction names generalizing usage values with
  | nil =>
      cases answered
      exact .inl member
  | cons name rest ih =>
      rw [environmentFrom] at answered
      rw [Resolving.readings]
      rcases read : resolving.getNamed usage.register usage.resolved name usage.world with
        ⟨_ | found, later⟩
      · rw [read] at answered
        cases answered
      · rw [read] at answered
        rcases @ih (usage.after later) _ answered
          with kept | ⟨place, resolver, reading, among, eq⟩
        · rcases Table.mem_put.mp kept with ⟨rfl, rfl⟩ | ⟨_, before⟩
          · obtain ⟨place, resolver, reading, among, eq⟩ := exists_reading read
            exact .inr ⟨place, resolver, reading, List.mem_append_left _ among, eq⟩
          · exact .inl before
        · exact .inr ⟨place, resolver, reading, List.mem_append_right _ among, eq⟩

theorem environmentFrom_of_raised {names : List Value} {values : List (String × Value)}
    {access : Access ρ} {error : Error} (among : access ∈ resolving.readings usage names)
    (raised : access.answer? = some (.error error)) :
    (resolving.environmentFrom usage.register values usage.resolved names usage.world).1
      = .error error := by
  induction names generalizing usage values with
  | nil => cases among
  | cons name rest ih =>
      have answers := answer_reading resolving usage name
      have own (here : access ∈ resolving.reading usage name) : .error error
          = (resolving.getNamed usage.register usage.resolved name usage.world).1 := by
        have answered := List.mem_filterMap.mpr ⟨access, here, raised⟩
        rwa [answers, List.mem_singleton] at answered
      rw [Resolving.readings, List.mem_append] at among
      rw [environmentFrom]
      rcases read : resolving.getNamed usage.register usage.resolved name usage.world with
        ⟨failed | value, found⟩
      · rw [read] at among own
        cases own (among.resolve_right List.not_mem_nil)
        rfl
      · rw [read] at among own
        rcases among with here | later
        · cases own here
        · exact @ih (usage.after found) _ later

/-- A log that the world keeps of resolvers that are called. -/
def Logs (resolving : Resolving ρ σ) (log : σ → List ρ) : Prop :=
  ∀ resolver world, log (resolving.resolve resolver world).2 = resolver :: log world

theorem Logs.passes {log : σ → List ρ} (logs : resolving.Logs log) {access : Access ρ}
    {next : Usage ρ σ} (passes : resolving.Passes usage access next) :
    log next.world = access.called?.toList ++ log usage.world := by
  cases passes with
  | declare | succeed | has | refuse | locate => rfl
  | @read ticket outcome resolved world _ _ _ found =>
      unfold valueAt at found
      split at found
      · rename_i value known
        cases found
        simp [Access.called?, Reading.of, Reading.isCall, known]
      · rename_i unknown
        have called := logs ticket.resolver usage.world
        rcases asked : resolving.resolve ticket.resolver usage.world with ⟨_ | value, later⟩
        all_goals
          rw [asked] at found called
          cases found
          simpa [Access.called?, Reading.of, Reading.isCall, unknown] using called

theorem Logs.trace {log : σ → List ρ} (logs : resolving.Logs log)
    (trace : resolving.Trace start history usage) :
    log usage.world = (history.filterMap Access.called?).reverse ++ log start.world := by
  induction trace with
  | nil => rfl
  | @snoc history access usage next _ passes ih =>
      rw [logs.passes passes, ih, List.filterMap_append, List.reverse_append,
        List.append_assoc]
      cases calls : access.called? <;> simp [calls]

/-- A resolver is called for a reader only, and the readings are disciplined: whatever the
accesses of a new registry and their order, those of one declaration are calls that fail,
then one that returns, then recollections of what it returned; each was located as the
latest of its name, with its producer marked; and as long as its name is not declared
again it is located at the same place.  Calls that are made one after the other are such
accesses, and their answers are those of the readings. -/
theorem resolves_once (resolving : Resolving ρ σ) (world : σ) :
    (∀ history usage, resolving.Trace { world } history usage →
        Access.Disciplined history
          ∧ ∀ log, resolving.Logs log →
              log usage.world = (history.filterMap Access.called?).reverse ++ log world)
      ∧ (∀ calls,
          resolving.Trace { world } (resolving.performAll { world } calls).2
              (resolving.performAll { world } calls).1
            ∧ Access.Disciplined (resolving.performAll { world } calls).2)
      ∧ (∀ usage name,
          (resolving.accesses usage (.get name)).filterMap Access.answer?
            = [(resolving.get usage.register usage.resolved name usage.world).1])
      ∧ ∀ usage names table,
          (resolving.environment usage.register usage.resolved names usage.world).1 =
            .ok table →
            ∀ key value, (key, value) ∈ table → ∃ place resolver reading,
              .read key place resolver reading ∈
                resolving.accesses usage (.environment names)
                ∧ reading.answer = .ok value := by
  have sequential :
      ∀ calls, resolving.Trace { world } (resolving.performAll { world } calls).2
      (resolving.performAll { world } calls).1 := fun calls => Trace.nil.performAll calls
  refine ⟨fun history usage trace => ⟨trace.disciplined, fun log logs => logs.trace trace⟩,
    fun calls => ⟨sequential calls, (sequential calls).disciplined⟩,
    fun usage name => answer_reading resolving usage (.string name),
    fun usage names table answered key value member => ?_⟩
  rcases exists_reading_of_environmentFrom answered member with ⟨⟨⟩⟩ | read
  exact read

/-- A resolver that fails when it is called first and then returns how often it was called
before, and two readers that have both located it when it is. -/
def flaky : Resolving String (List String) where
  resolve resolver called :=
    (if called = [] then .error (.ofFailure (.runtime "not yet"))
      else .ok (.int called.length),
      resolver :: called)

def pull : Ticket String := ⟨"IMAGE", 0, "pull"⟩

def pulling (found : Resolved) (readers : List (Ticket String)) (called : List String) :
    Usage String (List String) :=
  { register := { declared := [⟨"IMAGE", "src", "pull"⟩], succeeded := ["src"] }
    resolved := found
    pending := readers
    world := called }

def raced : List (Access String) :=
  [.declare [⟨"IMAGE", "src", "pull"⟩], .succeed "src", .locate "IMAGE" 0,
    .locate "IMAGE" 0,
    .read "IMAGE" 0 "pull" (.failed (.ofFailure (.runtime "not yet"))),
    .read "IMAGE" 0 "pull" (.returned (.int 1)), .locate "IMAGE" 0,
    .read "IMAGE" 0 "pull" (.recalled (.int 1))]

theorem flaky_resolves_once :
    (∃ usage, flaky.Trace { world := [] } raced usage) ∧ Access.Disciplined raced
      ∧ raced.filterMap Access.called? = ["pull", "pull"]
      ∧ (∃ place resolver reading,
          .read "IMAGE" place resolver reading
              ∈ flaky.accesses (pulling [(0, .int 1)] [] ["pull", "pull"])
                (.environment [.string "IMAGE"])
            ∧ reading.answer = .ok (.int 1)) := by
  obtain ⟨concurrent, _, _, environment⟩ := resolves_once flaky []
  have declared : flaky.Trace { world := [] } [.declare [⟨"IMAGE", "src", "pull"⟩]] _ :=
    Trace.nil.snoc (.declare "src" [("IMAGE", "pull")])
  have marked : flaky.Trace { world := [] } _ (pulling [] [] []) :=
    declared.snoc (.succeed "src")
  have locates : ∀ found readers called, flaky.Passes (pulling found readers called)
      (.locate "IMAGE" 0) (pulling found (pull :: readers) called) :=
    fun _ _ _ => @Passes.locate _ _ _ _ (.string "IMAGE") pull rfl
  have fails : flaky.Passes (pulling [] [pull, pull] [])
      (.read "IMAGE" 0 "pull" (.failed (.ofFailure (.runtime "not yet"))))
      (pulling [] [pull] ["pull"]) :=
    @Passes.read _ _ flaky (pulling [] [pull, pull] []) pull _ _ _ [] [pull] rfl rfl
  have returns : flaky.Passes (pulling [] [pull] ["pull"])
      (.read "IMAGE" 0 "pull" (.returned (.int 1)))
        (pulling [(0, .int 1)] [] ["pull", "pull"]) :=
    @Passes.read _ _ flaky (pulling [] [pull] ["pull"]) pull _ _ _ [] [] rfl rfl
  have recalls : flaky.Passes (pulling [(0, .int 1)] [pull] ["pull", "pull"])
      (.read "IMAGE" 0 "pull" (.recalled (.int 1)))
        (pulling [(0, .int 1)] [] ["pull", "pull"]) :=
    @Passes.read _ _ flaky (pulling [(0, .int 1)] [pull] ["pull", "pull"]) pull
      _ _ _ [] [] rfl rfl
  have trace : flaky.Trace { world := [] } raced
      (pulling [(0, .int 1)] [] ["pull", "pull"]) :=
    (((((marked.snoc (locates _ _ _)).snoc (locates _ _ _)).snoc fails).snoc returns).snoc
      (locates _ _ _)).snoc recalls
  obtain ⟨disciplined, logged⟩ := concurrent _ _ trace
  have log := logged id fun _ _ => rfl
  refine ⟨⟨_, trace⟩, disciplined, ?_, ?_⟩
  · rw [id_eq, id_eq, List.append_nil] at log
    exact List.reverse_eq_iff.mp log.symm
  · exact environment (pulling [(0, .int 1)] [] ["pull", "pull"]) [.string "IMAGE"]
      [("IMAGE", .int 1)] rfl "IMAGE" (.int 1) (.head _)

end Resolving

end BuildPipeline
