namespace BuildPipeline.Decimal

/-- A double taken apart exactly: its sign, and `mantissa * 2 ^ exponent` unless it is
infinite or not a number. -/
inductive Magnitude where
  | finite (mantissa : Nat) (exponent : Int)
  | infinite
  | undefined
deriving DecidableEq, Repr

structure Binary where
  negative : Bool
  magnitude : Magnitude
deriving DecidableEq, Repr

namespace Binary

def fractionSize : Nat := Nat.pow 2 52

def ofBits (bits : Nat) : Binary :=
  let fraction := bits % fractionSize
  let scale := bits / fractionSize % 2048
  { negative := bits / Nat.pow 2 63 % 2 == 1
    magnitude :=
      if scale == 2047 then (if fraction == 0 then .infinite else .undefined)
      else if scale == 0 then .finite fraction (-1074)
      else .finite (fractionSize + fraction) (Int.ofNat scale - 1075) }

def ofFloat (x : Float) : Binary :=
  ofBits x.toBits.toNat

end Binary

/-- The quotient of two natural numbers, rounded to the nearest one with ties to even. -/
def roundQuotient (num den : Nat) : Nat :=
  let floor := num / den
  let rest := num % den
  if 2 * rest < den then floor
  else if den < 2 * rest then floor + 1
  else if floor % 2 == 0 then floor else floor + 1

def numerator (mantissa : Nat) (exponent : Int) : Nat :=
  mantissa * Nat.pow 2 exponent.toNat

def denominator (exponent : Int) : Nat :=
  Nat.pow 2 (-exponent).toNat

def signed (negative : Bool) (n : Nat) : Int :=
  if negative then -(Int.ofNat n) else Int.ofNat n

def truncate? (x : Float) : Option Int :=
  let binary := Binary.ofFloat x
  match binary.magnitude with
  | .finite m q => some (signed binary.negative (numerator m q / denominator q))
  | _ => none

def round? (x : Float) : Option Int :=
  let binary := Binary.ofFloat x
  match binary.magnitude with
  | .finite m q =>
      some (signed binary.negative (roundQuotient (numerator m q) (denominator q)))
  | _ => none

def integer? (x : Float) : Option Int :=
  let binary := Binary.ofFloat x
  match binary.magnitude with
  | .finite m q =>
      if numerator m q % denominator q == 0 then
        some (signed binary.negative (numerator m q / denominator q))
      else none
  | _ => none

end BuildPipeline.Decimal
