import BuildPipeline.Error.Failure

namespace BuildPipeline

/-- An error is a failure with the failures that caused it, nearest first.  The innermost
cause may in turn have been caused by one of the failures already listed: `back` is its
position, counted from the outermost failure. -/
structure Error where
  head : Failure
  causes : List Failure := []
  back : Option Nat := none

namespace Error

def ofFailure (failure : Failure) : Error := { head := failure }

instance : Coe Failure Error := ⟨ofFailure⟩

def failures (error : Error) : List Failure :=
  error.head :: error.causes

def at? (error : Error) (position : Nat) : Option Failure :=
  error.failures[position]?

def next? (error : Error) (position : Nat) : Option Nat :=
  if position < error.causes.length then some (position + 1)
  else if position = error.causes.length then error.back
  else none

/-- Walking from cause to cause, and stopping at a failure that was seen before. -/
def walk (error : Error) : Nat → List Nat → Option Nat → List Failure
  | 0, _, _ => []
  | _ + 1, _, none => []
  | fuel + 1, seen, some position =>
      if position ∈ seen then []
      else
        match error.at? position with
        | none => []
        | some failure =>
            failure :: walk error fuel (position :: seen) (error.next? position)

def chain (error : Error) : List Failure :=
  error.walk (error.failures.length + 1) [] (some 0)

def causing (error : Error) (failure : Failure) : Error :=
  { head := failure, causes := error.failures, back := error.back.map (· + 1) }

def message (error : Error) : String := error.head.message

def described (error : Error) : String := error.head.described

def cause? (error : Error) : Option Failure :=
  (error.next? 0).bind error.at?

end Error

end BuildPipeline
