import BuildPipeline.Decimal.Whole
import BuildPipeline.Document.Yaml.Kind
import BuildPipeline.Text.Base64
import BuildPipeline.Text.Case
import BuildPipeline.Text.Quoted

namespace BuildPipeline.Document.Yaml

/-! The values of texts.  The text of a kind need not look like one of that kind where a
tag has named the kind. -/

namespace Scalar

def flags : List (String × Bool) :=
  [("yes", true), ("no", false), ("true", true), ("false", false), ("on", true),
    ("off", false)]

def flag (content : String) : Except Fault Bool :=
  match flags.lookup (Text.lower content) with
  | some flag => .ok flag
  | none => .error (.misuse .missingKey)

def unsigned (content : List Char) : Except Fault (Bool × List Char) :=
  match content.filter (· != '_') with
  | [] => .error (.misuse .missingPlace)
  | text => .ok (Decimal.signIn text)

def wholeIn (base : Nat) (text : List Char) : Except Fault Int :=
  let content := String.ofList text
  (Decimal.readWhole base content).mapError fun unread =>
    .noSuchValue (unread.message base (Text.quoted content))

def sixtieths (parts : List Int) : Int :=
  parts.foldl (fun n part => 60 * n + part) 0

def magnitude : List Char → Except Fault Int
  | [] => .error (.misuse .missingPlace)
  | ['0'] => .ok 0
  | '0' :: 'b' :: digits => wholeIn 2 digits
  | '0' :: 'x' :: digits => wholeIn 16 digits
  | '0' :: digits => wholeIn 8 ('0' :: digits)
  | text =>
      if text.contains ':' then do
        let parts ← (Text.piecesAt ':' text).mapM (wholeIn 10)
        return sixtieths parts
      else wholeIn 10 text

def whole (content : String) : Except Fault Int := do
  let (negative, body) ← unsigned content.toList
  let n ← magnitude body
  return if negative then -n else n

def realIn (text : List Char) : Except Fault Float :=
  let content := String.ofList text
  match Decimal.readFloat? content with
  | some x => .ok x
  | none =>
      .error (.noSuchValue ("could not convert string to float: " ++ Text.quoted content))

/-- The sum of parts in base sixty, last part first.  Each weight is exact before it
becomes a double, and must not be too large for one. -/
def weighted : Nat → Float → List Float → Except Fault Float
  | _, sum, [] => .ok sum
  | weight, sum, part :: parts =>
      let factor := Decimal.toFloat false weight 0
      if factor.isInf then .error (.misuse .overflow)
      else weighted (60 * weight) (sum + part * factor) parts

def size (body : List Char) : Except Fault Float :=
  if String.ofList body = ".inf" then .ok (1.0 / 0.0)
  else if String.ofList body = ".nan" then .ok (0.0 / 0.0)
  else if body.contains ':' then do
    let parts ← (Text.piecesAt ':' body).mapM realIn
    weighted 1 0.0 parts.reverse
  else realIn body

def real (content : String) : Except Fault Float := do
  let (negative, body) ← unsigned (Text.lowerIn content.toList)
  let x ← size body
  return if negative then -x else x

def bytes (content : String) : Except Fault (List UInt8) :=
  if content.toList.all Text.Case.isAscii then
    match Text.Base64.decode? content.toList with
    | some bytes => .ok bytes
    | none => .error .malformed
  else .error .malformed

def moment (content : String) : Except Fault Value :=
  match Stamp.ofText? (Kind.withoutLastEnd content.toList) with
  | some stamp => stamp.value
  | none => .error (.misuse .missingField)

def value (kind : Kind) (content : String) : Except Fault Value :=
  match kind with
  | .null => .ok .null
  | .flag => (flag content).map .bool
  | .whole => (whole content).map .int
  | .real => (real content).map .float
  | .string => .ok (.string content)
  | .bytes => (bytes content).map .bytes
  | .moment => moment content
  | _ => .error .malformed

end Scalar

end BuildPipeline.Document.Yaml
