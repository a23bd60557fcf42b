import BuildPipeline.Decimal.Layout
import BuildPipeline.Decimal.Whole
import BuildPipeline.Document.Value
import BuildPipeline.Text.Basic
import BuildPipeline.Text.Quoted
import BuildPipeline.Time.Calendar

namespace BuildPipeline.Document

/-! Documents as text.  `text` is how a value reads inside a sentence; inside a list or a
mapping each value is `quoted`, so that texts stand between quotes.  Inside itself a
collection is written as three points, which is why the marks on the way are kept. -/

namespace Value

def openBrace : String := "\x7b"
def closeBrace : String := "\x7d"

def ellipsis : Value → String
  | .mapping _ => openBrace ++ "..." ++ closeBrace
  | _ => "[...]"

mutual

def quotedIn (way : List Nat) : Value → String
  | .null => "None"
  | .bool flag => if flag then "True" else "False"
  | .int number => toString number
  | .float number => Decimal.Layout.plain.write number
  | .string content => Text.quoted content
  | .bytes content => Text.quotedBytes content
  | .date year month day =>
      "datetime.date(" ++ toString year ++ ", " ++ toString month ++ ", "
        ++ toString day ++ ")"
  | .moment reading => reading.quoted
  | .pair first second => "(" ++ quotedIn way first ++ ", " ++ quotedIn way second ++ ")"
  | .list items => "[" ++ Text.commaSeparated (quotedItems way items) ++ "]"
  | .set members =>
      if members.isEmpty then "set()"
      else openBrace ++ Text.commaSeparated (quotedItems way members) ++ closeBrace
  | .mapping entries =>
      openBrace ++ Text.commaSeparated (quotedEntries way entries) ++ closeBrace
  | .shared mark content =>
      if way.contains mark then ellipsis content else quotedIn (mark :: way) content

def quotedItems (way : List Nat) : List Value → List String
  | [] => []
  | item :: rest => quotedIn way item :: quotedItems way rest

def quotedEntries (way : List Nat) : List (Value × Value) → List String
  | [] => []
  | entry :: rest => quotedEntry way entry :: quotedEntries way rest

def quotedEntry (way : List Nat) : Value × Value → String
  | (key, value) => quotedIn way key ++ ": " ++ quotedIn way value

end

def quoted (value : Value) : String :=
  quotedIn [] value

def text (value : Value) : String :=
  match value with
  | .string content => content
  | .date year month day => Calendar.dateText year month day
  | .moment reading => reading.text
  | value => value.quoted

theorem text_string (content : String) : text (.string content) = content := rfl

inductive Hindrance where
  | tooLong
  | tooDeep
deriving DecidableEq, Repr

/-! The first hindrance in the order of writing.  Each value takes one level of what is
left of `depth`, a scalar too. -/

mutual

def hindranceIn : Nat → List Nat → Value → Option Hindrance
  | 0, _, _ => some .tooDeep
  | _ + 1, _, .int number => if Decimal.isWritable number then none else some .tooLong
  | depth + 1, way, .pair first second =>
      (hindranceIn depth way first).or (hindranceIn depth way second)
  | depth + 1, way, .list items => hindranceAmong depth way items
  -- A set is written as the list of its members, which takes a level of its own.
  | depth + 1, way, .set members => hindranceAmong (depth - 1) way members
  | depth + 1, way, .mapping entries => hindranceAmongEntries depth way entries
  | depth + 1, way, .shared mark content =>
      if way.contains mark then none else hindranceIn (depth + 1) (mark :: way) content
  | _ + 1, _, _ => none

def hindranceAmong (depth : Nat) (way : List Nat) : List Value → Option Hindrance
  | [] => none
  | item :: rest => (hindranceIn depth way item).or (hindranceAmong depth way rest)

def hindranceAmongEntries (depth : Nat) (way : List Nat) :
    List (Value × Value) → Option Hindrance
  | [] => none
  | entry :: rest =>
      (hindranceInEntry depth way entry).or (hindranceAmongEntries depth way rest)

def hindranceInEntry (depth : Nat) (way : List Nat) : Value × Value → Option Hindrance
  | (key, value) => (hindranceIn depth way key).or (hindranceIn depth way value)

end

def hindrance? (value : Value) : Option Hindrance :=
  hindranceIn nestingLimit [] value

/-! A value is endless if some collection in it holds itself. -/

mutual

def isEndlessIn (way : List Nat) : Value → Bool
  | .pair first second => isEndlessIn way first || isEndlessIn way second
  | .list items => anyEndless way items
  | .mapping entries => anyEndlessEntry way entries
  | .shared mark content => way.contains mark || isEndlessIn (mark :: way) content
  | _ => false

def anyEndless (way : List Nat) : List Value → Bool
  | [] => false
  | item :: rest => isEndlessIn way item || anyEndless way rest

def anyEndlessEntry (way : List Nat) : List (Value × Value) → Bool
  | [] => false
  | entry :: rest => isEndlessEntry way entry || anyEndlessEntry way rest

def isEndlessEntry (way : List Nat) : Value × Value → Bool
  | (_, value) => isEndlessIn way value

end

def isEndless (value : Value) : Bool :=
  isEndlessIn [] value

end Value

end BuildPipeline.Document
