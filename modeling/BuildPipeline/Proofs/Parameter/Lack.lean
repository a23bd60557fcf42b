import BuildPipeline.Parameter.Resolution
import BuildPipeline.Proofs.Answer

namespace BuildPipeline

open Document

variable {α ρ σ : Type}

def Failure.isMissingParameter : Failure → Bool
  | .missingParameter _ _ => true
  | _ => false

/-- An error that tells of a missing parameter, for itself or as what caused it. -/
def Error.lacksParameter (error : Error) : Bool :=
  error.failures.any Failure.isMissingParameter

theorem Error.lacksParameter_ofFailure (failure : Failure) :
    (Error.ofFailure failure).lacksParameter = failure.isMissingParameter :=
  Bool.or_false _

theorem Error.lacksParameter_causing (error : Error) (failure : Failure) :
    (error.causing failure).lacksParameter
      = (failure.isMissingParameter || error.lacksParameter) := rfl

namespace Answer

def Plain (answer : Except Failure α) : Prop :=
  Yields (fun _ => True) (fun failure => failure.isMissingParameter = false) answer

def Supplied (answer : Except Error α) : Prop :=
  Yields (fun _ => True) (fun error => error.lacksParameter = false) answer

theorem Supplied.mapError {answer : Except Error α} (supplied : Supplied answer)
    {change : Error → Error}
    (keeps : ∀ error, error.lacksParameter = false →
      (change error).lacksParameter = false) :
    Supplied (answer.mapError change) := by
  cases answer with
  | ok value => exact trivial
  | error error => exact keeps error supplied

theorem Plain.mapError {answer : Except Failure α} (plain : Plain answer) :
    Supplied (answer.mapError Error.ofFailure) := by
  cases answer with
  | ok value => exact trivial
  | error failure => exact (Error.lacksParameter_ofFailure failure).trans plain

end Answer

namespace Resolving

variable {resolving : Resolving ρ σ} {register : Register ρ}

/-- A name that the register has is found; what may still fail is its resolver. -/
theorem supplied_get
    (resolve : ∀ resolver world, Answer.Supplied (resolving.resolve resolver world).1)
    {name : String} (known : register.has name = true) (resolved : Resolved) (world : σ) :
    Answer.Supplied (resolving.get register resolved name world).1 := by
  obtain ⟨⟨place, resolver⟩, located⟩ := Register.locate_of_has known
  have asked := resolve resolver world
  unfold get
  rw [located]
  dsimp only
  unfold valueAt
  split
  · exact trivial
  · split <;> rename_i eq <;> rwa [eq] at asked

theorem supplied_environmentFrom
    (resolve : ∀ resolver world, Answer.Supplied (resolving.resolve resolver world).1)
    {names : List Value}
    (known : ∀ name ∈ names, ∃ text, name = .string text ∧ register.has text = true)
    (values : List (String × Value)) (resolved : Resolved) (world : σ) :
    Answer.Supplied (resolving.environmentFrom register values resolved names world).1 := by
  induction names generalizing values resolved world with
  | nil => exact trivial
  | cons name rest ih =>
      obtain ⟨⟨text, rfl, has⟩, later⟩ := List.forall_mem_cons.mp known
      have read := supplied_get resolve has resolved world
      unfold environmentFrom getNamed
      dsimp only
      split <;> rename_i eq
      · rwa [eq] at read
      · exact ih later _ _ _

end Resolving

end BuildPipeline
