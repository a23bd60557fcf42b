import BuildPipeline.Decimal.Whole
import BuildPipeline.Document.Value
import BuildPipeline.Text.Quoted

namespace BuildPipeline.Document.Json

/-! Reading a document from text.  Whole numbers stay exact, a point or an exponent makes
a double, and of two entries with the same key the later one counts. -/

inductive Fault where
  | undecodable
  | tooLong (count : Nat)
  | tooDeep
deriving DecidableEq, Repr

def skipSpace : List Char → List Char :=
  List.dropWhile fun c => c = ' ' ∨ c = '\t' ∨ c = '\n' ∨ c = '\r'

def hexDigit? (c : Char) : Option Nat :=
  let code := c.toNat
  if 0x30 ≤ code ∧ code ≤ 0x39 then some (code - 0x30)
  else if 0x41 ≤ code ∧ code ≤ 0x46 then some (code - 0x41 + 10)
  else if 0x61 ≤ code ∧ code ≤ 0x66 then some (code - 0x61 + 10)
  else none

def unit? : List Char → Option (Nat × List Char)
  | a :: b :: c :: d :: rest => do
      let a ← hexDigit? a
      let b ← hexDigit? b
      let c ← hexDigit? c
      let d ← hexDigit? d
      some (((a * 16 + b) * 16 + c) * 16 + d, rest)
  | _ => none

def isHighUnit (unit : Nat) : Bool := 0xd800 ≤ unit && unit < 0xdc00
def isLowUnit (unit : Nat) : Bool := 0xdc00 ≤ unit && unit < 0xe000

def unitChar (unit : Nat) : Char :=
  if 0xd800 ≤ unit ∧ unit < 0xe000 then Char.ofNat 0xfffd else Char.ofNat unit

/-- One character after a backslash: a high and a low unit in a row are one character. -/
def escaped? : List Char → Option (Char × List Char)
  | 'u' :: rest =>
      match unit? rest with
      | some (high, '\\' :: 'u' :: more) =>
          match unit? more with
          | some (low, after) =>
              if isHighUnit high && isLowUnit low then
                some (Char.ofNat (0x10000 + (high - 0xd800) * 0x400 + (low - 0xdc00)),
                  after)
              else some (unitChar high, '\\' :: 'u' :: more)
          | none => some (unitChar high, '\\' :: 'u' :: more)
      | some (unit, after) => some (unitChar unit, after)
      | none => none
  | 'n' :: rest => some ('\n', rest)
  | 'r' :: rest => some ('\r', rest)
  | 't' :: rest => some ('\t', rest)
  | 'b' :: rest => some (Char.ofNat 0x08, rest)
  | 'f' :: rest => some (Char.ofNat 0x0c, rest)
  | '/' :: rest => some ('/', rest)
  | c :: rest =>
      if c = Text.Quoted.double ∨ c = Text.Quoted.backslash then some (c, rest) else none
  | [] => none

def stringIn : Nat → List Char → List Char → Option (List Char × List Char)
  | 0, _, _ => none
  | _ + 1, _, [] => none
  | fuel + 1, read, c :: rest =>
      if c = Text.Quoted.double then some (read, rest)
      else if c = Text.Quoted.backslash then
        match escaped? rest with
        | some (plain, after) => stringIn fuel (plain :: read) after
        | none => none
      else if c.toNat < 0x20 then none
      else stringIn fuel (c :: read) rest

def asciiDigits : List Char → List Char × List Char :=
  List.span fun c => '0' ≤ c && c ≤ '9'

def digitsValue (digits : List Char) : Nat :=
  digits.foldl (fun value c => 10 * value + (c.toNat - 0x30)) 0

/-- A fraction is a point with at least one digit, an exponent a mark with at least one
digit; a point or a mark without digits is no part of the number. -/
def fractionIn (text : List Char) : List Char × List Char :=
  match text with
  | '.' :: rest =>
      match asciiDigits rest with
      | ([], _) => ([], text)
      | (digits, after) => (digits, after)
  | _ => ([], text)

def exponentIn (text : List Char) : Option Int × List Char :=
  match text with
  | c :: rest =>
      if c = 'e' ∨ c = 'E' then
        let (negative, body) := Decimal.signIn rest
        match asciiDigits body with
        | ([], _) => (none, text)
        | (digits, after) => (some (Decimal.signed negative (digitsValue digits)), after)
      else (none, text)
  | [] => (none, [])

def numberIn (negative : Bool) (text : List Char) : Except Fault (Value × List Char) :=
  let (whole, afterWhole) :=
    match text with
    | '0' :: rest => (['0'], rest)
    | _ => asciiDigits text
  if whole.isEmpty then .error .undecodable
  else
    let (fraction, afterFraction) := fractionIn afterWhole
    let (exponent, after) := exponentIn afterFraction
    if fraction.isEmpty && exponent.isNone then
      if Decimal.digitLimit < whole.length then .error (.tooLong whole.length)
      else .ok (.int (Decimal.signed negative (digitsValue whole)), after)
    else
      .ok (.float (Decimal.toFloat negative (digitsValue (whole ++ fraction))
        (exponent.getD 0 - Int.ofNat fraction.length)), after)

def wordIn (word : String) (value : Value) (text : List Char) :
    Except Fault (Value × List Char) :=
  if word.toList.isPrefixOf text then .ok (value, text.drop word.length)
  else .error .undecodable

def scalarIn (text : List Char) : Except Fault (Value × List Char) :=
  match text with
  | 'n' :: _ => wordIn "null" .null text
  | 't' :: _ => wordIn "true" (.bool true) text
  | 'f' :: _ => wordIn "false" (.bool false) text
  | 'N' :: _ => wordIn "NaN" (.float (0.0 / 0.0)) text
  | 'I' :: _ => wordIn "Infinity" (.float (1.0 / 0.0)) text
  | '-' :: 'I' :: _ => wordIn "-Infinity" (.float (-(1.0 / 0.0))) text
  | '-' :: rest => numberIn true rest
  | _ => numberIn false text

/-- Brackets may stand inside each other up to a limit; `depth` is what is left of it. -/
def depthLimit : Nat := nestingLimit

mutual

def valueIn : Nat → Nat → List Char → Except Fault (Value × List Char)
  | 0, _, _ => .error .undecodable
  | fuel + 1, depth, text =>
      match text with
      | '[' :: rest =>
          if depth = 0 then .error .tooDeep
          else
            match skipSpace rest with
            | ']' :: after => .ok (.list [], after)
            | inside => itemsIn fuel (depth - 1) [] inside
      | '\x7b' :: rest =>
          if depth = 0 then .error .tooDeep
          else
            match skipSpace rest with
            | '\x7d' :: after => .ok (.mapping [], after)
            | inside => entriesIn fuel (depth - 1) [] inside
      | '"' :: rest =>
          match stringIn (rest.length + 1) [] rest with
          | some (read, after) => .ok (.string (String.ofList read.reverse), after)
          | none => .error .undecodable
      | _ => scalarIn text

def itemsIn : Nat → Nat → List Value → List Char → Except Fault (Value × List Char)
  | 0, _, _, _ => .error .undecodable
  | fuel + 1, depth, read, text =>
      match valueIn fuel depth text with
      | .error fault => .error fault
      | .ok (item, after) =>
          match skipSpace after with
          | ',' :: rest => itemsIn fuel depth (item :: read) (skipSpace rest)
          | ']' :: rest => .ok (.list (item :: read).reverse, rest)
          | _ => .error .undecodable

def entriesIn : Nat → Nat → Entries → List Char → Except Fault (Value × List Char)
  | 0, _, _, _ => .error .undecodable
  | fuel + 1, depth, read, text =>
      match text with
      | '"' :: rest =>
          match stringIn (rest.length + 1) [] rest with
          | none => .error .undecodable
          | some (key, afterKey) =>
              match skipSpace afterKey with
              | ':' :: body =>
                  match valueIn fuel depth (skipSpace body) with
                  | .error fault => .error fault
                  | .ok (value, after) =>
                      let entries :=
                        Entries.put read (.string (String.ofList key.reverse)) value
                      match skipSpace after with
                      | ',' :: more => entriesIn fuel depth entries (skipSpace more)
                      | '\x7d' :: more => .ok (.mapping entries, more)
                      | _ => .error .undecodable
              | _ => .error .undecodable
      | _ => .error .undecodable

end

def read (text : String) : Except Fault Value := do
  let body := skipSpace text.toList
  let (value, after) ← valueIn (2 * body.length + 2) depthLimit body
  if (skipSpace after).isEmpty then return value else throw .undecodable

end BuildPipeline.Document.Json
