import BuildPipeline.Text.Basic

namespace BuildPipeline.Text

/-! The lines of a text.  A line ends at any of the line and paragraph separators, and a
carriage return with a line feed after it is one end. -/

def isLineEnd (c : Char) : Bool :=
  let code := c.toNat
  (0x0a ≤ code && code ≤ 0x0d) || (0x1c ≤ code && code ≤ 0x1e) || code == 0x85
    || code == 0x2028 || code == 0x2029

def linesIn (current : List Char) : List Char → List (List Char)
  | [] => if current.isEmpty then [] else [current.reverse]
  | '\r' :: '\n' :: rest => current.reverse :: linesIn [] rest
  | c :: rest =>
      if isLineEnd c then current.reverse :: linesIn [] rest
      else linesIn (c :: current) rest

def lines (text : String) : List String :=
  (linesIn [] text.toList).map String.ofList

/-- The characters that are dropped around a word: the Unicode white space and the four
information separators. -/
def isBlank (c : Char) : Bool :=
  let code := c.toNat
  (0x09 ≤ code && code ≤ 0x0d) || (0x1c ≤ code && code ≤ 0x20) || code == 0x85
    || code == 0xa0 || code == 0x1680 || (0x2000 ≤ code && code ≤ 0x200a)
    || code == 0x2028 || code == 0x2029 || code == 0x202f || code == 0x205f
    || code == 0x3000

/-- Around a number the separators are no blanks. -/
def isSpace (c : Char) : Bool :=
  isBlank c && !(0x1c ≤ c.toNat && c.toNat ≤ 0x1f)

def trimBlank (text : String) : String :=
  trim isBlank text

/-! Sequences that colour a terminal: an escape character, an opening bracket, numbers,
and a letter that says what to do.  A line that is kept as plain text is written without
them. -/

def escapeChar : Char := '\x1b'

def isControlParameter (c : Char) : Bool :=
  c.isDigit || c == ';' || c == '?'

def controlRest? : List Char → Option Nat
  | first :: '[' :: rest =>
      let parameters := (rest.takeWhile isControlParameter).length
      match rest.drop parameters with
      | letter :: _ =>
          if first == escapeChar && letter.isAlpha then some (parameters + 2) else none
      | [] => none
  | _ => none

def withoutControlsIn (skipped : Nat) : List Char → List Char
  | [] => []
  | c :: rest =>
      match skipped with
      | skipped + 1 => withoutControlsIn skipped rest
      | 0 =>
          match controlRest? (c :: rest) with
          | some count => withoutControlsIn count rest
          | none => c :: withoutControlsIn 0 rest

def withoutControls (text : String) : String :=
  String.ofList (withoutControlsIn 0 text.toList)

end BuildPipeline.Text
