import BuildPipeline.Error.Failure

namespace BuildPipeline

/-- The cancellation of a run: asked for, or come with its deadline.  Times are seconds on
the run's own clock, which starts at zero. -/
structure Context where
  cancelRequested : Bool := false
  deadline : Option Float := none
  clock : Float := 0.0

namespace Context

/-- A run without a timeout, or with a timeout of zero, has no deadline. -/
def ofTimeout : Option Float → Context
  | none => {}
  | some timeout => if timeout == 0.0 then {} else { deadline := some timeout }

def cancel (context : Context) : Context :=
  { context with cancelRequested := true }

def isElapsed (context : Context) : Bool :=
  match context.deadline with
  | some deadline => decide (deadline ≤ context.clock)
  | none => false

def isCancelled (context : Context) : Bool :=
  context.cancelRequested || context.isElapsed

def atLeastZero (x : Float) : Float :=
  if 0.0 < x then x else 0.0

def remaining (context : Context) : Option Float :=
  context.deadline.map fun deadline => atLeastZero (deadline - context.clock)

/-- Waiting ends early at the deadline, and at once when the run has been asked to stop. -/
def pause (context : Context) (seconds : Float) : Float :=
  match context.remaining with
  | some remaining => if remaining < seconds then remaining else seconds
  | none => seconds

def wait (context : Context) (seconds : Float) : Context :=
  if context.cancelRequested then context
  else { context with clock := context.clock + atLeastZero (context.pause seconds) }

def check (context : Context) : Except Failure Unit :=
  if context.isCancelled then .error (.cancelled "pipeline run was cancelled") else .ok ()

end Context

end BuildPipeline
