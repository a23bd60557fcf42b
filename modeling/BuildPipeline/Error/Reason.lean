import BuildPipeline.Error.Chain
import BuildPipeline.Error.Failure

namespace BuildPipeline

namespace Template

open Document

/-! Filling a message template: `%s` takes the text of the next argument, `%d` its whole
number, and `%%` is a percent sign.  Every argument has to be used. -/

def wholeNumber (value : Value) : Except Failure String :=
  match value with
  | .int number => .ok (toString number)
  | .bool flag => .ok (if flag then "1" else "0")
  | .float number =>
      match Decimal.truncate? number with
      | some whole => .ok (toString whole)
      | none => .error (.misuse .overflow)
  | _ => .error (.misuse .wrongType)

def badMark (mark : Char) (position : Nat) : Failure :=
  .value ("unsupported format character " ++ Text.quoted (String.singleton mark) ++ " (0x"
    ++ String.ofList (Nat.toDigits 16 mark.toNat) ++ ") at index " ++ toString position)

def fillFrom : Nat → List Char → List Value → Except Failure String
  | _, [], [] => .ok ""
  | _, [], _ :: _ => .error (.misuse .wrongType)
  | _, ['%'], _ => .error (.value "incomplete format")
  | position, '%' :: mark :: rest, args =>
      if mark = '%' then do
        let after ← fillFrom (position + 2) rest args
        .ok ("%" ++ after)
      else if mark = 's' ∨ mark = 'd' then
        match args with
        | [] => .error (.misuse .wrongType)
        | arg :: others => do
            let filled ← if mark = 's' then .ok arg.text else wholeNumber arg
            let after ← fillFrom (position + 2) rest others
            .ok (filled ++ after)
      else .error (badMark mark (position + 1))
  | position, c :: rest, args => do
      let after ← fillFrom (position + 1) rest args
      .ok (String.singleton c ++ after)

/-- Without arguments a template is taken as it stands. -/
def fill (template : String) (args : List Value) : Except Failure String :=
  if args.isEmpty then .ok template else fillFrom 0 template.toList args

end Template

/-! Short stable tags on errors.  Tags nest: an error whose causes are tagged as well has
a full reason such as `promoting_images:running_pod`. -/

namespace Reason

def unknown : String := "unknown"
def cancelled : String := "cancelled"
def validating : String := "validating_step"
def skipped : String := "dependency_failed"
def step : String := "executing_step"
def runFailed : String := "step_failed"

end Reason

inductive Category where
  | configuration
  | infrastructure
  | step
  | cancelled
deriving DecidableEq, Repr

namespace Category

def name : Category → String
  | .configuration => "configuration"
  | .infrastructure => "infrastructure"
  | .step => "step"
  | .cancelled => "cancelled"

def ofFailure? (failure : Failure) : Option Category :=
  if failure.isCancellation then some .cancelled
  else if failure.isConfiguration then some .configuration
  else if failure.isPodFailure then some .step
  else if failure.isCluster then some .infrastructure
  else none

end Category

namespace Error

/-- Tagging an error: its text is kept, or the name of its kind where it has none. -/
def because (error : Error) (reason : String) : Error :=
  error.causing (.reasoned reason error.described)

def formatted (reason template : String) (args : List Document.Value) :
    Except Failure Error :=
  (Template.fill template args).map fun message => ofFailure (.reasoned reason message)

def reasons (error : Error) : List String :=
  error.chain.filterMap Failure.reason?

def isReasoned (error : Error) : Bool :=
  error.head.reason?.isSome

/-- The outermost tag.  An error without tags is unknown, unless it is itself a
cancellation. -/
def reason (error : Error) : String :=
  match error.reasons with
  | outermost :: _ => outermost
  | [] => if error.head.isCancellation then Reason.cancelled else Reason.unknown

def fullReason (error : Error) : String :=
  match error.reasons with
  | [] => error.reason
  | reasons => String.intercalate ":" reasons

/-- The first failure of the chain that decides a category; a step failure by default. -/
def category (error : Error) : Category :=
  (error.chain.findSome? Category.ofFailure?).getD .step

end Error

namespace Reason

def of? : Option Error → String
  | some error => error.reason
  | none => unknown

def fullOf? : Option Error → String
  | some error => error.fullReason
  | none => unknown

end Reason

namespace Category

def of? : Option Error → Category
  | some error => error.category
  | none => .step

end Category

end BuildPipeline
