import BuildPipeline.Decimal.Binary
import BuildPipeline.Decimal.Reading

namespace BuildPipeline.Decimal

/-! Whole numbers from text, in any base up to thirty-six.  Digits beyond nine are letters
of either case, and a digit of any script counts as the usual one. -/

def usualDigit (c : Char) : Char :=
  match digit? c with
  | some value => Char.ofNat (0x30 + value)
  | none => c

def digitOf? (base : Nat) (c : Char) : Option Nat :=
  let code := c.toNat
  let value :=
    if 0x30 ≤ code ∧ code ≤ 0x39 then some (code - 0x30)
    else if 0x41 ≤ code ∧ code ≤ 0x5a then some (code - 0x41 + 10)
    else if 0x61 ≤ code ∧ code ≤ 0x7a then some (code - 0x61 + 10)
    else none
  value.filter (· < base)

def digitsOf? (base : Nat) : List Char → Option (List Nat)
  | [] => none
  | [c] => (digitOf? base c).map fun value => [value]
  | c :: '_' :: rest => do
      let value ← digitOf? base c
      let values ← digitsOf? base rest
      return value :: values
  | c :: next :: rest => do
      let value ← digitOf? base c
      let values ← digitsOf? base (next :: rest)
      return value :: values

def ofDigits (base : Nat) (digits : List Nat) : Nat :=
  digits.foldl (fun n value => base * n + value) 0

/-- A mark may name the base before the digits, and an underscore may follow it. -/
def marks : List (Nat × Char) :=
  [(2, 'b'), (8, 'o'), (16, 'x')]

def afterBar : List Char → List Char
  | '_' :: rest => rest
  | text => text

def unmarked (base : Nat) (text : List Char) : List Char :=
  match text with
  | '0' :: mark :: rest =>
      if marks.contains (base, mark.toLower) then afterBar rest else text
  | _ => text

/-- Why a text is no whole number: it is none, or it has more digits than are converted.
The limit holds where a digit is no fixed number of binary ones. -/
inductive Unread where
  | malformed
  | tooLong (count : Nat)
deriving DecidableEq, Repr

def digitLimit : Nat := 4300

def isLimited (base : Nat) : Bool :=
  !([2, 4, 8, 16, 32] : List Nat).contains base

def readWhole (base : Nat) (text : String) : Except Unread Int :=
  let (negative, body) := signIn (bodyOf text)
  match digitsOf? base (unmarked base (body.map usualDigit)) with
  | none => .error .malformed
  | some digits =>
      if isLimited base ∧ digitLimit < digits.length then .error (.tooLong digits.length)
      else .ok (signed negative (ofDigits base digits))

def readInt? (text : String) : Option Int :=
  (readWhole 10 text).toOption

def isWritable (number : Int) : Bool :=
  number.natAbs < Nat.pow 10 digitLimit

def limitText : String :=
  "Exceeds the limit (" ++ toString digitLimit ++ " digits) for integer string conversion"

def adviceText : String :=
  "; use sys.set_int_max_str_digits() to increase the limit"

def unwritable : String :=
  limitText ++ adviceText

def excerptLimit : Nat := 200

def Unread.message (base : Nat) (shown : String) : Unread → String
  | .malformed =>
      "invalid literal for int() with base " ++ toString base ++ ": "
        ++ Text.first excerptLimit shown
  | .tooLong count =>
      limitText ++ ": value has " ++ toString count ++ " digits" ++ adviceText

end BuildPipeline.Decimal
