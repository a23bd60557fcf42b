import BuildPipeline.Decimal.Layout
import BuildPipeline.Document.Text
import BuildPipeline.Text.Base64
import BuildPipeline.Text.Basic

namespace BuildPipeline.Document.Yaml

/-! Writing a document so that it reads back the same.  Texts stand between double quotes,
in printable ASCII alone, so that none of them is taken for another value. -/

def escape (c : Char) : List Char :=
  if c = Text.Quoted.double ∨ c = Text.Quoted.backslash then [Text.Quoted.backslash, c]
  else if 0x20 ≤ c.toNat ∧ c.toNat ≤ 0x7e then [c]
  else if c.toNat < 0x100 then Text.Quoted.backslash :: 'x' :: Text.hexDigits 2 c.toNat
  else if c.toNat < 0x10000 then Text.Quoted.backslash :: 'u' :: Text.hexDigits 4 c.toNat
  else Text.Quoted.backslash :: 'U' :: Text.hexDigits 8 c.toNat

def encode (text : List Char) : List Char :=
  Text.Quoted.double :: text.flatMap escape ++ [Text.Quoted.double]

def layout : Decimal.Layout :=
  { Decimal.Layout.plain with infinity := ".inf", undefined := ".nan" }

def floatText (x : Float) : String :=
  let text := layout.write x
  if text.toList.contains '.' then text else Text.replaceFirst "e" ".0e" text

/-! Entries are written in the order of their keys, if they have one: texts by code point,
numbers by size, dates by day, moments by time, bytes by the first that differ. -/

def numberAtMost : Int ⊕ Float → Int ⊕ Float → Bool
  | .inl m, .inl n => m ≤ n
  | .inr x, .inr y => x ≤ y
  | .inl m, .inr y =>
      match Decimal.truncate? y with
      | some n => m ≤ (if n ≤ 0 ∧ Decimal.integer? y ≠ some n ∧ y < 0.0 then n - 1 else n)
      | none => 0.0 < y
  | .inr x, .inl n =>
      match Decimal.truncate? x with
      | some m => (if 0 ≤ m ∧ Decimal.integer? x ≠ some m ∧ 0.0 < x then m + 1 else m) ≤ n
      | none => x < 0.0

def dateNumber? : Value → Option Nat
  | .date year month day => some ((year * 100 + month) * 100 + day)
  | _ => none

def clock? : Value → Option Int
  | .moment reading => if reading.offset.isNone then some reading.clockMicros else none
  | _ => none

def instant? : Value → Option Int
  | .moment reading => reading.instant?
  | _ => none

def bytes? : Value → Option (List Nat)
  | .bytes content => some (content.map UInt8.toNat)
  | _ => none

def sortBy (key? : Value → Option κ) (atMost : κ → κ → Bool) (entries : Entries) :
    Option Entries := do
  let keyed ← entries.mapM fun entry => (key? entry.1).map (·, entry)
  some ((keyed.mergeSort fun a b => atMost a.1 b.1).map (·.2))

def ordered (entries : Entries) : Entries :=
  (sortBy Value.string? (fun a b => decide (a ≤ b)) entries
    <|> sortBy Value.number? numberAtMost entries
    <|> sortBy dateNumber? (fun a b => decide (a ≤ b)) entries
    <|> sortBy clock? (fun a b => decide (a ≤ b)) entries
    <|> sortBy instant? (fun a b => decide (a ≤ b)) entries
    <|> sortBy bytes? (fun a b => !List.lex b a fun m n => decide (m < n)) entries).getD
      entries

mutual

def sortedIn (way : List Nat) : Value → Value
  | .pair first second => .pair (sortedIn way first) (sortedIn way second)
  | .list items => .list (sortedItems way items)
  | .mapping entries => .mapping (ordered (sortedEntries way entries))
  | .shared mark content =>
      if way.contains mark then .shared mark content
      else .shared mark (sortedIn (mark :: way) content)
  | value => value

def sortedItems (way : List Nat) : List Value → List Value
  | [] => []
  | item :: rest => sortedIn way item :: sortedItems way rest

def sortedEntries (way : List Nat) : List (Value × Value) → List (Value × Value)
  | [] => []
  | entry :: rest => sortedEntry way entry :: sortedEntries way rest

def sortedEntry (way : List Nat) : Value × Value → Value × Value
  | (key, value) => (key, sortedIn way value)

end

/-- A key that is too long to be told by its colon has a mark before it. -/
def keyLimit : Nat := 128

def entryText (key value : String) : String :=
  if key.length ≤ keyLimit then key ++ ": " ++ value else "? " ++ key ++ " : " ++ value

/-! Each value is one line.  A collection that holds itself has an anchor where it is
written, and wherever else it stands an alias is written; `seen` are the marks that have
their anchor. -/

def anchorName (mark : Nat) : String :=
  "m" ++ toString mark

def tagged (name text : String) : String :=
  "!!" ++ name ++ " " ++ text

def binaryText (content : List UInt8) : String :=
  tagged "binary" (String.ofList (encode (Text.Base64.encode content)))

mutual

def line (seen : List Nat) : Value → String × List Nat
  | .null => ("null", seen)
  | .bool flag => (if flag then "true" else "false", seen)
  | .int number => (toString number, seen)
  | .float number => (floatText number, seen)
  | .string content => (String.ofList (encode content.toList), seen)
  | .bytes content => (binaryText content, seen)
  | .date year month day => (Calendar.dateText year month day, seen)
  | .moment reading => (reading.text, seen)
  | .pair first second =>
      let (first, seen) := line seen first
      let (second, seen) := line seen second
      ("[" ++ first ++ ", " ++ second ++ "]", seen)
  | .list items =>
      let (items, seen) := lineItems seen items
      ("[" ++ Text.commaSeparated items ++ "]", seen)
  | .set members =>
      let (members, seen) := lineItems seen members
      let entries := members.map fun member => entryText member "null"
      (tagged "set" (Value.openBrace ++ Text.commaSeparated entries ++ Value.closeBrace),
        seen)
  | .mapping entries =>
      let (entries, seen) := lineEntries seen entries
      (Value.openBrace ++ Text.commaSeparated entries ++ Value.closeBrace, seen)
  | .shared mark content =>
      if seen.contains mark then ("*" ++ anchorName mark, seen)
      else
        let (content, seen) := line (mark :: seen) content
        ("&" ++ anchorName mark ++ " " ++ content, seen)

def lineItems (seen : List Nat) : List Value → List String × List Nat
  | [] => ([], seen)
  | item :: rest =>
      let (item, seen) := line seen item
      let (rest, seen) := lineItems seen rest
      (item :: rest, seen)

def lineEntries (seen : List Nat) : List (Value × Value) → List String × List Nat
  | [] => ([], seen)
  | entry :: rest =>
      let (entry, seen) := lineEntry seen entry
      let (rest, seen) := lineEntries seen rest
      (entry :: rest, seen)

def lineEntry (seen : List Nat) : Value × Value → String × List Nat
  | (key, value) =>
      let (key, seen) := line seen key
      let (value, seen) := line seen value
      (entryText key value, seen)

end

def write (entries : Entries) : String :=
  let sorted := ordered (sortedEntries [] entries)
  if sorted.isEmpty then Value.openBrace ++ Value.closeBrace ++ "\n"
  else
    Value.openBrace ++ "\n  " ++ String.intercalate ",\n  "
      (lineEntries [] sorted).1 ++ "\n" ++ Value.closeBrace ++ "\n"

end BuildPipeline.Document.Yaml
