import BuildPipeline.Decimal.Binary
import BuildPipeline.Time.Moment

namespace BuildPipeline.Document

/-- A document: what a configuration file, a cluster object or a message body holds.  A
mapping keeps its entries in the order in which their keys first came.  A collection that
holds itself is `shared`: wherever it stands it has the same mark, and below some depth it
is left empty. -/
inductive Value where
  | null
  | bool (flag : Bool)
  | int (number : Int)
  | float (number : Float)
  | string (content : String)
  | bytes (content : List UInt8)
  | date (year month day : Nat)
  | moment (reading : Moment)
  | pair (first second : Value)
  | list (items : List Value)
  | set (members : List Value)
  | mapping (entries : List (Value × Value))
  | shared (mark : Nat) (content : Value)
deriving Inhabited

/-- How many values may stand inside each other when they are read or written.  The stack
of calls sets the limit, and what is taken of it differs with the caller: the number is
the measure of one depth of the stack. -/
def nestingLimit : Nat := 980

/-- What can go wrong when a document is used as something it is not. -/
inductive Misuse where
  | missingField
  | wrongType
  | missingKey
  | missingPlace
  | overflow
  | tooDeep
  | undecodable
deriving DecidableEq, Repr

namespace Value

def bare : Value → Value
  | .shared _ content => content
  | value => value

def isTrue (value : Value) : Bool :=
  match value.bare with
  | .null => false
  | .bool flag => flag
  | .int number => number != 0
  | .float number => !(number == 0.0)
  | .string content => content != ""
  | .bytes content => !content.isEmpty
  | .list items => !items.isEmpty
  | .set members => !members.isEmpty
  | .mapping entries => !entries.isEmpty
  | _ => true

@[simp] theorem isTrue_string (content : String) :
    isTrue (.string content) = (content != "") := rfl

@[simp] theorem isTrue_list (items : List Value) :
    isTrue (.list items) = !items.isEmpty := rfl

/-- The value itself, or `other` where it counts as false. -/
def orElse (value other : Value) : Value :=
  if value.isTrue then value else other

def ofOption : Option Value → Value
  | some value => value
  | none => .null

def number? : Value → Option (Int ⊕ Float)
  | .bool flag => some (.inl (if flag then 1 else 0))
  | .int number => some (.inl number)
  | .float number => some (.inr number)
  | _ => none

def sameNumber : Int ⊕ Float → Int ⊕ Float → Bool
  | .inl m, .inl n => m == n
  | .inl m, .inr y => Decimal.integer? y == some m
  | .inr x, .inl n => Decimal.integer? x == some n
  | .inr x, .inr y => x == y || (x.isNaN && y.isNaN)

/-- Two scalars are the same key if they are equal, where equal numbers count as one key,
and so does what is no number. -/
def sameKey : Value → Value → Bool
  | .null, .null => true
  | .string a, .string b => a == b
  | .bytes a, .bytes b => a == b
  | .date y m d, .date y' m' d' => y == y' && m == m' && d == d'
  | .moment a, .moment b => a.isSame b
  | a, b =>
      match a.number?, b.number? with
      | some m, some n => sameNumber m n
      | _, _ => false

def isKey : Value → Bool
  | .list _ => false
  | .set _ => false
  | .mapping _ => false
  | .shared _ _ => false
  | .pair first second => first.isKey && second.isKey
  | _ => true

def isString : Value → Bool
  | .string _ => true
  | _ => false

def string? : Value → Option String
  | .string content => some content
  | _ => none

end Value

abbrev Entries := List (Value × Value)

namespace Entries

def get? (entries : Entries) (key : Value) : Option Value :=
  (entries.find? fun entry => entry.1.sameKey key).map (·.2)

def put (entries : List (Value × α)) (key : Value) (value : α) : List (Value × α) :=
  if entries.any (fun entry => entry.1.sameKey key) then
    entries.map fun entry => if entry.1.sameKey key then (entry.1, value) else entry
  else entries ++ [(key, value)]

/-- A later entry with the same key replaces the value and keeps the place. -/
def ofPairs (pairs : List (Value × Value)) : Entries :=
  pairs.foldl (fun entries pair => put entries pair.1 pair.2) []

end Entries

namespace Value

/-- The value under a text key of a mapping; anything else has no fields. -/
def field? (value : Value) (key : String) : Except Misuse (Option Value) :=
  match value.bare with
  | .mapping entries => .ok (Entries.get? entries (.string key))
  | _ => .error .missingField

def field (value : Value) (key : String) : Except Misuse Value :=
  (value.field? key).map ofOption

def fieldOr (value : Value) (key : String) (default : Value) : Except Misuse Value :=
  (value.field? key).map (·.getD default)

def elements (value : Value) : Except Misuse (List Value) :=
  match value.bare with
  | .list items => .ok items
  | .pair first second => .ok [first, second]
  | .set members => .ok members
  | .string content => .ok (content.toList.map fun c => .string (String.singleton c))
  | .bytes content => .ok (content.map fun byte => .int (Int.ofNat byte.toNat))
  | .mapping entries => .ok (entries.map (·.1))
  | _ => .error .wrongType

def object (fields : List (String × Value)) : Value :=
  .mapping (fields.map fun entry => (.string entry.1, entry.2))

def texts (items : List String) : Value :=
  .list (items.map .string)

end Value

end BuildPipeline.Document
