import BuildPipeline.Error.Chain
import BuildPipeline.Execution.Context
import BuildPipeline.Execution.Coordinator
import BuildPipeline.Graph.Basic
import BuildPipeline.Parameter.Resolution
import BuildPipeline.Rehearsal.Watch

namespace BuildPipeline

open Document

/-- A rehearsed step follows a script instead of doing work. -/
inductive Action where
  /-- waits until the hook has been told of the end of these steps -/
  | waitFor (names : List String)
  /-- joins a barrier and waits until as many steps as it holds have joined -/
  | join (parties : Nat)
  | pass (parties place : Nat)
  | cancel
  | waitCancelled
  | probe (parameter : String)
  | read (parameter : String)
  | check
  | fail (error : Error)

abbrev Script := List Action

/-- A rehearsed resolver: it raises on its first calls, on all of them if no count is
given, and then gives its value.  Every resolver has a serial number of its own. -/
structure Answer where
  serial : Nat
  parameter : String
  raises : Option Error := none
  times : Option Nat := none
  value : Value

namespace Answer

def outcome (answer : Answer) (earlierCalls : Nat) : Except Error Value :=
  match answer.raises, answer.times with
  | none, _ => .ok answer.value
  | some error, none => .error error
  | some error, some times =>
      if earlierCalls < times then .error error else .ok answer.value

end Answer

abbrev RehearsedStep := Step Script Answer

/-- The world of a rehearsal: the run's cancellation, what each started step has still to
do, who has joined which barrier, the parameter values found, and a record of everything
that happened. -/
structure Rehearsal where
  context : Context := {}
  watch : Option Watch := none
  scripts : List (String × Script) := []
  joined : List (Nat × Nat) := []
  ended : List String := []
  resolved : Resolved := []
  launched : List String := []
  calls : List Nat := []
  reads : List (String × String × Value) := []
  seen : Watch.Seen := {}

namespace Rehearsal

def callsOf (world : Rehearsal) (serial : Nat) : Nat :=
  world.calls.count serial

def resolving : Resolving Answer Rehearsal where
  resolve answer world :=
    (answer.outcome (world.callsOf answer.serial),
      { world with calls := answer.serial :: world.calls })

def readParameter (register : Register Answer) (name : String) (world : Rehearsal) :
    Except Error Value × Rehearsal :=
  let (outcome, resolved, world) := resolving.get register world.resolved name world
  (outcome, { world with resolved })

def arrivals (world : Rehearsal) (parties : Nat) : Nat :=
  ((world.joined.find? fun entry => entry.1 == parties).map (·.2)).getD 0

def arrive (world : Rehearsal) (parties : Nat) : Rehearsal :=
  { world with
    joined :=
      (parties, world.arrivals parties + 1) :: world.joined.filter fun entry =>
        entry.1 != parties }

/-- The barrier lets steps through in groups of its size, in the order in which they
joined. -/
def isOpen (world : Rehearsal) (parties place : Nat) : Bool :=
  (place / parties + 1) * parties ≤ world.arrivals parties

def remember (step name : String) (value : Value) (world : Rehearsal) : Rehearsal :=
  { world with reads := world.reads ++ [(step, name, value)] }

/-- How far a step gets before it has to wait for something, fails or ends. -/
inductive Advance where
  | waits (script : Script)
  | ends (outcome : Except Error Unit)

def advance (register : Register Answer) (step : String) :
    Script → Rehearsal → Advance × Rehearsal
  | [], world => (.ends (.ok ()), world)
  | .waitFor names :: rest, world =>
      if names.all world.ended.contains then advance register step rest world
      else (.waits (.waitFor names :: rest), world)
  | .join parties :: rest, world =>
      let place := world.arrivals parties
      let world := world.arrive parties
      if world.isOpen parties place then advance register step rest world
      else (.waits (.pass parties place :: rest), world)
  | .pass parties place :: rest, world =>
      if world.isOpen parties place then advance register step rest world
      else (.waits (.pass parties place :: rest), world)
  | .cancel :: rest, world =>
      advance register step rest { world with context := world.context.cancel }
  | .waitCancelled :: rest, world =>
      if world.context.isCancelled then advance register step rest world
      else (.waits (.waitCancelled :: rest), world)
  | .probe name :: rest, world =>
      advance register step rest (world.remember step name (.bool (register.has name)))
  | .read name :: rest, world =>
      match readParameter register name world with
      | (.error error, world) => (.ends (.error error), world)
      | (.ok value, world) => advance register step rest (world.remember step name value)
  | .check :: rest, world =>
      match world.context.check with
      | .error failure => (.ends (.error (Error.ofFailure failure)), world)
      | .ok _ => advance register step rest world
  | .fail error :: _, world => (.ends (.error error), world)

def sweep (register : Register Answer) :
    List String → Rehearsal → List Completion × Rehearsal
  | [], world => ([], world)
  | step :: rest, world =>
      match advance register step ((Table.get? world.scripts step).getD []) world with
      | (.ends outcome, world) => ([⟨step, outcome⟩], world)
      | (.waits script, world) =>
          sweep register rest { world with scripts := Table.put world.scripts step script }

/-- A step may wait for one that comes after it, so the sweep is repeated; each repetition
brings at least one step further.  If every step waits, time passes up to the deadline. -/
def sweeps (register : Register Answer) (inFlight : List String) :
    Nat → Rehearsal → List Completion × Rehearsal
  | 0, world => ([], world)
  | rounds + 1, world =>
      match sweep register inFlight world with
      | ([], world) => sweeps register inFlight rounds world
      | ended => ended

def passTime (world : Rehearsal) : Rehearsal :=
  match world.context.deadline with
  | some deadline =>
      if world.context.clock < deadline then
        { world with context := { world.context with clock := deadline } }
      else world
  | none => world

def awaitSome (register : Register Answer) (inFlight : List String) (world : Rehearsal) :
    List Completion × Rehearsal :=
  let rounds := 4 * inFlight.length + 1
  match sweeps register inFlight rounds world with
  | ([], world) => sweeps register inFlight rounds world.passTime
  | ended => ended

def launch (step : RehearsedStep) (world : Rehearsal) : Rehearsal :=
  { world with
    launched := step.name :: world.launched
    scripts := Table.put world.scripts step.name step.work }

/-- The hook of a rehearsal notes which steps have ended and may cancel the run. -/
def note (event : Event) (world : Rehearsal) : Rehearsal :=
  match event with
  | .stepEnd name _ => { world with ended := name :: world.ended }
  | _ => world

def tellHook (event : Event) (world : Rehearsal) : Except Error Unit × Rehearsal :=
  match world.watch with
  | none => (.ok (), world)
  | some watch =>
      let noted := world.note event
      let context := if watch.cancels event then noted.context.cancel else noted.context
      let (outcome, seen) := watch.observe event noted.seen
      (outcome, { noted with context, seen })

def environment : Environment Script Answer Rehearsal where
  cancelled world := world.context.isCancelled
  now _ := default
  launch := launch
  await ledger inFlight world := awaitSome ledger.register inFlight world
  hook _ event world := tellHook event world

/-- Every turn but the last brings a step to its end or notices the cancellation. -/
def run (graph : StepGraph Script Answer) (parallelism : Int) (world : Rehearsal) :
    Environment.Ending × Progress Answer Rehearsal :=
  environment.run graph parallelism (graph.steps.length + 2) {} world

end Rehearsal

end BuildPipeline
