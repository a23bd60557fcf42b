import BuildPipeline.Document.Yaml.Stamp
import BuildPipeline.Document.Yaml.Tag

namespace BuildPipeline.Document.Yaml

/-- What a node of a document stands for.  `merge` and `default` are the keys with a use
of their own, and what has no use is `unknown`. -/
inductive Kind where
  | null
  | flag
  | whole
  | real
  | string
  | bytes
  | moment
  | list
  | mapping
  | set
  | pairs
  | merge
  | default
  | unknown
deriving DecidableEq, Repr, Inhabited

namespace Kind

def isCollection : Kind → Bool
  | .list | .mapping | .set | .pairs => true
  | _ => false

def names : List (String × Kind) :=
  [("null", .null), ("bool", .flag), ("int", .whole), ("float", .real), ("str", .string),
   ("binary", .bytes), ("timestamp", .moment), ("seq", .list),
   ("map", .mapping), ("set", .set),
   ("omap", .pairs), ("pairs", .pairs), ("merge", .merge), ("value", .default)]

def ofTag (tag : String) : Kind :=
  ((names.map fun entry => (Tag.core entry.1, entry.2)).lookup tag).getD .unknown

def words : List (String × Kind) :=
  ["", "~", "null", "Null", "NULL"].map (·, .null)
    ++ ["yes", "Yes", "YES", "true", "True", "TRUE", "on", "On", "ON",
        "no", "No", "NO", "false", "False", "FALSE", "off", "Off", "OFF"].map (·, .flag)
    ++ [".inf", ".Inf", ".INF", ".nan", ".NaN", ".NAN",
        "+.inf", "+.Inf", "+.INF", "-.inf", "-.Inf", "-.INF"].map (·, .real)
    ++ [("<<", .merge), ("=", .default)]
    ++ ["!", "&", "*"].map (·, .unknown)

def isDigit (base : Nat) (c : Char) : Bool :=
  (Json.hexDigit? c).any (· < base)

def isDigitOrBar (base : Nat) (c : Char) : Bool :=
  c == '_' || isDigit base c

def startsWithDigit (text : List Char) : Bool :=
  text.head?.any (isDigit 10)

def isSixtieth : List Char → Bool
  | [unit] => isDigit 10 unit
  | [ten, unit] => isDigit 6 ten && isDigit 10 unit
  | _ => false

/-- A whole number: in base two or sixteen after its mark, in base eight after a zero, in
base sixty with colons, otherwise in base ten. -/
def isWhole : List Char → Bool
  | '0' :: 'b' :: digits => !digits.isEmpty && digits.all (isDigitOrBar 2)
  | '0' :: 'x' :: digits => !digits.isEmpty && digits.all (isDigitOrBar 16)
  | '0' :: digits => digits.all (isDigitOrBar 8)
  | text =>
      match Text.piecesAt ':' text with
      | [] => false
      | first :: parts =>
          startsWithDigit first && first.all (isDigitOrBar 10) && parts.all isSixtieth

def isExponent : List Char → Bool
  | [] => true
  | mark :: sign :: digits =>
      (mark == 'e' || mark == 'E') && (sign == '+' || sign == '-') && !digits.isEmpty
        && digits.all (isDigit 10)
  | _ => false

/-- Digits with a point, then perhaps an exponent with a sign.  Digits before the point
may be missing only where there is no sign. -/
def hasPoint (signed : Bool) (body : List Char) : Bool :=
  let (first, rest) := body.span (isDigitOrBar 10)
  match rest with
  | '.' :: rest =>
      let (places, rest) := rest.span (isDigitOrBar 10)
      (if first.isEmpty then !signed && startsWithDigit places else startsWithDigit first)
        && isExponent rest
  | _ => false

def hasSixtieths (body : List Char) : Bool :=
  match Text.piecesAt ':' body with
  | [] => false
  | first :: parts =>
      match parts.reverse with
      | [] => false
      | last :: middle =>
          let (units, places) := last.span (isDigit 10)
          startsWithDigit first && first.all (isDigitOrBar 10) && middle.all isSixtieth
            && isSixtieth units && places.head? == some '.'
            && places.tail.all (isDigitOrBar 10)

/-- A date that stands for itself is padded, unless a time follows it. -/
def isMoment (text : List Char) : Bool :=
  (Stamp.ofText? text).any fun stamp => stamp.isPadded || stamp.time.isSome

/-! The kind of a text without quotes and tag.  A line end after a word counts for
nothing. -/

def withoutLastEnd (text : List Char) : List Char :=
  if text.getLast? = some '\n' then text.dropLast else text

def ofLine (text : List Char) : Kind :=
  let (_, body) := Decimal.signIn text
  let signed := body.length < text.length
  match words.lookup (String.ofList text) with
  | some kind => kind
  | none =>
      if hasPoint signed body || hasSixtieths body then .real
      else if isWhole body then .whole
      else if isMoment text then .moment
      else .string

def ofText (content : String) : Kind :=
  if content = "\n" then .string else ofLine (withoutLastEnd content.toList)

def ofScalar (tag : Option String) (content : String) (isPlain : Bool) : Kind :=
  match tag with
  | none => if isPlain then ofText content else .string
  | some tag => if tag = "!" then ofText content else ofTag tag

def ofCollection (usual : Kind) (tag : Option String) : Kind :=
  match tag with
  | none => usual
  | some tag => if tag = "!" then usual else ofTag tag

end Kind

end BuildPipeline.Document.Yaml
