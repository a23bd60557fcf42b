import BuildPipeline.Text.Case
import BuildPipeline.Text.Lines

namespace BuildPipeline.Decimal

/-- Decimal digits of every script: each script's ten digits are consecutive code points. -/
def digitZeros : List Nat :=
  [0x30, 0x660, 0x6f0, 0x7c0, 0x966, 0x9e6, 0xa66, 0xae6, 0xb66, 0xbe6, 0xc66, 0xce6, 0xd66,
   0xde6, 0xe50, 0xed0, 0xf20, 0x1040, 0x1090, 0x17e0, 0x1810, 0x1946, 0x19d0, 0x1a80,
   0x1a90, 0x1b50, 0x1bb0, 0x1c40, 0x1c50, 0xa620, 0xa8d0, 0xa900, 0xa9d0, 0xa9f0, 0xaa50,
   0xabf0, 0xff10, 0x104a0, 0x10d30, 0x11066, 0x110f0, 0x11136, 0x111d0, 0x112f0, 0x11450,
   0x114d0, 0x11650, 0x116c0, 0x11730, 0x118e0, 0x11950, 0x11c50, 0x11d50, 0x11da0, 0x16a60,
   0x16ac0, 0x16b50, 0x1d7ce, 0x1d7d8, 0x1d7e2, 0x1d7ec, 0x1d7f6, 0x1e140, 0x1e2f0, 0x1e950,
   0x1fbf0]

def digit? (c : Char) : Option Nat :=
  (digitZeros.find? fun start => start ≤ c.toNat && c.toNat < start + 10).map (c.toNat - ·)

/-- A run of digits in which single underscores may stand between two digits, with what
follows. -/
def digitsAfter (value count : Nat) : List Char → Nat × Nat × List Char
  | [] => (value, count, [])
  | '_' :: c :: rest =>
      match digit? c with
      | some d => digitsAfter (10 * value + d) (count + 1) rest
      | none => (value, count, '_' :: c :: rest)
  | c :: rest =>
      match digit? c with
      | some d => digitsAfter (10 * value + d) (count + 1) rest
      | none => (value, count, c :: rest)

def digitsIn : List Char → Nat × Nat × List Char
  | [] => (0, 0, [])
  | c :: rest =>
      match digit? c with
      | some d => digitsAfter d 1 rest
      | none => (0, 0, c :: rest)

def signIn : List Char → Bool × List Char
  | '+' :: rest => (false, rest)
  | '-' :: rest => (true, rest)
  | text => (false, text)

def bodyOf (text : String) : List Char :=
  Text.trimIn Text.isSpace text.toList

def toFloat (negative : Bool) (coefficient : Nat) (exponent : Int) : Float :=
  let magnitude :=
    if coefficient = 0 then 0.0
    else if 400 < exponent then 1.0 / 0.0
    else if exponent + Int.ofNat (Nat.toDigits 10 coefficient).length < -400 then 0.0
    else Float.ofScientific coefficient (exponent < 0) exponent.natAbs
  if negative then -magnitude else magnitude

def exponentIn (text : List Char) : Option (Int × List Char) :=
  match text with
  | c :: rest =>
      if c = 'e' ∨ c = 'E' then
        let (negative, body) := signIn rest
        match digitsIn body with
        | (_, 0, _) => none
        | (value, _, after) =>
            some (if negative then -(Int.ofNat value) else Int.ofNat value, after)
      else some (0, text)
  | [] => some (0, [])

def fractionIn (whole : Nat) (text : List Char) : Nat × Nat × List Char :=
  match text with
  | '.' :: c :: rest =>
      match digit? c with
      | some d => digitsAfter (10 * whole + d) 1 rest
      | none => (whole, 0, c :: rest)
  | '.' :: rest => (whole, 0, rest)
  | _ => (whole, 0, text)

/-- A number: blanks around, one sign, then a word for infinity or for no number, or
digits with at most one point and at most one exponent. -/
def readFloat? (text : String) : Option Float :=
  let (negative, body) := signIn (bodyOf text)
  let word := String.ofList (body.map Char.toLower)
  if word = "inf" ∨ word = "infinity" then some
    (if negative then -(1.0 / 0.0) else 1.0 / 0.0)
  else if word = "nan" then some (0.0 / 0.0)
  else
    let (whole, wholeCount, afterWhole) := digitsIn body
    let (coefficient, places, afterFraction) := fractionIn whole afterWhole
    if wholeCount = 0 ∧ places = 0 then none
    else
      match exponentIn afterFraction with
      | some (exponent, []) =>
          some (toFloat negative coefficient (exponent - Int.ofNat places))
      | _ => none

end BuildPipeline.Decimal
