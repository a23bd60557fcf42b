import BuildPipeline.Decimal.Layout
import BuildPipeline.Document.Value
import BuildPipeline.Text.Quoted

namespace BuildPipeline.Document.Json

/-! Texts between double quotes, in ASCII alone: what is not a printable ASCII character
is written as UTF-16 units in four hexadecimal digits, but for the five controls with a
short form. -/

def unitEscape (unit : Nat) : List Char :=
  Text.Quoted.backslash :: 'u' :: Text.hexDigits 4 unit

def unitsEscape (code : Nat) : List Char :=
  if code < 0x10000 then unitEscape code
  else
    unitEscape (0xd800 + (code - 0x10000) / 0x400) ++ unitEscape
      (0xdc00 + (code - 0x10000) % 0x400)

def short? (c : Char) : Option Char :=
  if c = Text.Quoted.double ∨ c = Text.Quoted.backslash then some c
  else if c = '\n' then some 'n'
  else if c = '\r' then some 'r'
  else if c = '\t' then some 't'
  else if c.toNat = 0x08 then some 'b'
  else if c.toNat = 0x0c then some 'f'
  else none

def escape (c : Char) : List Char :=
  match short? c with
  | some letter => [Text.Quoted.backslash, letter]
  | none => if 0x20 ≤ c.toNat ∧ c.toNat ≤ 0x7e then [c] else unitsEscape c.toNat

def encode (text : List Char) : List Char :=
  Text.Quoted.double :: text.flatMap escape ++ [Text.Quoted.double]

def string (text : String) : String :=
  String.ofList (encode text.toList)

structure Style where
  item : String
  key : String

def compact : Style := ⟨",", ":"⟩

def spaced : Style := ⟨", ", ": "⟩

def keyText : Value → String
  | .string content => content
  | .null => "null"
  | .bool flag => if flag then "true" else "false"
  | .int number => toString number
  | .float number => Decimal.Layout.interchange.write number
  | _ => ""

def openBrace : String := "\x7b"
def closeBrace : String := "\x7d"

mutual

def write (style : Style) : Value → String
  | .null => "null"
  | .bool flag => if flag then "true" else "false"
  | .int number => toString number
  | .float number => Decimal.Layout.interchange.write number
  | .string content => string content
  | .pair first second =>
      "[" ++ String.intercalate style.item [write style first, write style second] ++ "]"
  | .list items => "[" ++ String.intercalate style.item (writeItems style items) ++ "]"
  | .mapping entries =>
      openBrace ++ String.intercalate style.item (writeEntries style entries) ++ closeBrace
  | .shared _ content => write style content
  | _ => "null"

def writeItems (style : Style) : List Value → List String
  | [] => []
  | item :: rest => write style item :: writeItems style rest

def writeEntries (style : Style) : List (Value × Value) → List String
  | [] => []
  | entry :: rest => writeEntry style entry :: writeEntries style rest

def writeEntry (style : Style) : Value × Value → String
  | (key, value) => string (keyText key) ++ style.key ++ write style value

end

def indentedTexts (items : List String) : String :=
  if items.isEmpty then "[]"
  else "[\n  " ++ String.intercalate ",\n  " (items.map string) ++ "\n]"

end BuildPipeline.Document.Json
