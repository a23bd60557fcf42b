import BuildPipeline.Report.Console
import BuildPipeline.Report.Sink

namespace BuildPipeline

/-- What watches a rehearsal: where events are passed on to, at which of them the run is
cancelled, and which of them make the hook fail. -/
inductive Outlet where
  | nowhere
  | console
  | sink (sink : Sink) (isBroken : Bool)

structure Watch where
  outlet : Outlet := .nowhere
  cancelAt : Option (String × Option String) := none
  failAt : List String := []

namespace Watch

def cancels (watch : Watch) (event : Event) : Bool :=
  match watch.cancelAt with
  | none => false
  | some (kind, scope) =>
      event.kind == kind && (scope.isNone || event.scope? == scope)

structure Seen where
  events : List Event := []
  lines : List Line := []
  posts : List Post := []

def forward (outlet : Outlet) (event : Event) (seen : Seen) : Except Error Unit × Seen :=
  match outlet with
  | .nowhere => (.ok (), seen)
  | .console => (.ok (), { seen with lines := seen.lines ++ [event.line] })
  | .sink sink isBroken =>
      match sink.post? event with
      | none => (.ok (), seen)
      | some (.error failure) => (.error (Error.ofFailure failure), seen)
      | some (.ok post) =>
          let posted := { seen with posts := seen.posts ++ [post] }
          if isBroken then (.error (Error.ofFailure (.transport "OSError" "")), posted)
          else (.ok (), posted)

def observe (watch : Watch) (event : Event) (seen : Seen) : Except Error Unit × Seen :=
  match forward watch.outlet event { seen with events := seen.events ++ [event] } with
  | (.error error, seen) => (.error error, seen)
  | (.ok _, seen) =>
      if watch.failAt.contains event.kind then
        (.error (Error.ofFailure (.runtime ("hook failed at " ++ event.kind))), seen)
      else (.ok (), seen)

end Watch

end BuildPipeline
