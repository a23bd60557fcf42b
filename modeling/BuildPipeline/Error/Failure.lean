import BuildPipeline.Document.Text

namespace BuildPipeline

open Document

inductive Failure where
  | configuration (message : String)
  | duplicateProvider (link first second : String)
  | unsatisfiable (step link : String)
  | cyclic (names : List String)
  | invalidStep (step message : String)
  | missingParameter (name : Value) (producer : Option String)
  | cancelled (message : String)
  | cluster (message : String) (status : Option Int)
  | notFound (message : String) (status : Option Int)
  | alreadyExists (message : String) (status : Option Int) (afterRetry : Bool)
  | transient (message : String) (status : Option Int)
  | podFailed (name exitCode message : Value)
  | reasoned (reason message : String)
  | runtime (message : String)
  | value (message : String)
  | transport (kind message : String)
  | misuse (fault : Misuse)

namespace Failure

def isConfiguration : Failure → Bool
  | .configuration _ | .duplicateProvider _ _ _ | .unsatisfiable _ _ | .cyclic _
  | .invalidStep _ _ | .missingParameter _ _ => true
  | _ => false

def isPodFailure : Failure → Bool
  | .podFailed _ _ _ => true
  | _ => false

def isCluster : Failure → Bool
  | .cluster _ _ | .notFound _ _ | .alreadyExists _ _ _ | .transient _ _
  | .podFailed _ _ _ => true
  | _ => false

def isCancellation : Failure → Bool
  | .cancelled _ => true
  | _ => false

def reason? : Failure → Option String
  | .reasoned reason _ => some reason
  | _ => none

def podText (name exitCode message : Value) : String :=
  "pod " ++ name.text ++ " failed"
    ++ (match exitCode with
        | .null => ""
        | code => " (exit code " ++ code.text ++ ")")
    ++ (if message.isTrue then ": " ++ message.text else "")

def parameterText (name : Value) : Option String → String
  | none => "parameter " ++ name.quoted ++ " is not provided by any step"
  | some producer =>
      if producer = "" then "parameter " ++ name.quoted ++ " is not provided by any step"
      else
        "parameter " ++ name.quoted ++ " is not available: producing step "
          ++ Text.quoted producer ++ " has not succeeded"

/-- A misuse has no message here: its texts are those of the runtime, and are not
modelled. -/
def message : Failure → String
  | .configuration message => message
  | .duplicateProvider link first second =>
      link ++ " is provided by both " ++ Text.quoted first ++ " and " ++ Text.quoted second
  | .unsatisfiable step link =>
      "step " ++ Text.quoted step ++ " requires " ++ link ++ ", which no step provides"
  | .cyclic names => "cyclic dependency: " ++ String.intercalate " -> " names
  | .invalidStep step message => "step " ++ Text.quoted step ++ " is invalid: " ++ message
  | .missingParameter name producer => parameterText name producer
  | .cancelled message => message
  | .cluster message _ => message
  | .notFound message _ => message
  | .alreadyExists message _ _ => message
  | .transient message _ => message
  | .podFailed name exitCode message => podText name exitCode message
  | .reasoned _ message => message
  | .runtime message => message
  | .value message => message
  | .transport _ message => message
  | .misuse _ => ""

/-- The name of a failure's kind stands in for its message where it has none. -/
def kind : Failure → String
  | .configuration _ => "ConfigurationError"
  | .duplicateProvider _ _ _ => "DuplicateProviderError"
  | .unsatisfiable _ _ => "UnsatisfiableDependencyError"
  | .cyclic _ => "CyclicDependencyError"
  | .invalidStep _ _ => "StepValidationError"
  | .missingParameter _ _ => "MissingParameterError"
  | .cancelled _ => "CancelledError"
  | .cluster _ _ => "ClusterError"
  | .notFound _ _ => "NotFoundError"
  | .alreadyExists _ _ _ => "AlreadyExistsError"
  | .transient _ _ => "TransientClusterError"
  | .podFailed _ _ _ => "PodFailedError"
  | .reasoned _ _ => "ReasonedError"
  | .runtime _ => "RuntimeError"
  | .value _ => "ValueError"
  | .transport kind _ => kind
  | .misuse .missingField => "AttributeError"
  | .misuse .wrongType => "TypeError"
  | .misuse .missingKey => "KeyError"
  | .misuse .missingPlace => "IndexError"
  | .misuse .overflow => "OverflowError"
  | .misuse .tooDeep => "RecursionError"
  | .misuse .undecodable => "JSONDecodeError"

def described (failure : Failure) : String :=
  if failure.message = "" then failure.kind else failure.message

end Failure

def asked (answer : Except Misuse α) : Except Failure α :=
  answer.mapError .misuse

namespace Document.Value

def Hindrance.failure : Hindrance → Failure
  | .tooLong => .value Decimal.unwritable
  | .tooDeep => .misuse .tooDeep

def written (value : Value) : Except Failure String :=
  match value.hindrance? with
  | none => .ok value.text
  | some hindrance => .error hindrance.failure

end Document.Value

end BuildPipeline
