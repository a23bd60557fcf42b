import BuildPipeline.Decimal.Binary

namespace BuildPipeline.Decimal

structure Scaled where
  coefficient : Nat
  exponent : Int
deriving DecidableEq, Repr

def digitCount (n : Nat) : Nat :=
  (Nat.toDigits 10 n).length

/-- The exponent `p` with `10 ^ (p - 1) ≤ num / den < 10 ^ p`. -/
def leadingPlace (num den : Nat) : Int :=
  let guess := Int.ofNat (digitCount num) - Int.ofNat (digitCount den)
  if den * Nat.pow 10 guess.toNat ≤ num * Nat.pow 10 (-guess).toNat then
    guess + 1 else guess

/-- The reals that read back as `mantissa * 2 ^ exponent`, as multiples of a quarter of
the last binary place.  The ends belong to them iff the mantissa is even; below a power of
two the lower half gap is half as wide. -/
structure Interval where
  low : Nat
  value : Nat
  high : Nat
  closed : Bool
deriving DecidableEq, Repr

namespace Interval

def around (mantissa : Nat) (exponent : Int) : Interval :=
  { low :=
      if mantissa == Binary.fractionSize && (-1074 : Int) < exponent then 4 * mantissa - 1
      else 4 * mantissa - 2
    value := 4 * mantissa
    high := 4 * mantissa + 2
    closed := mantissa % 2 == 0 }

def holds (interval : Interval) (point scale : Nat) : Bool :=
  if interval.closed then
    interval.low * scale ≤ point && point ≤ interval.high * scale
  else interval.low * scale < point && point < interval.high * scale

end Interval

/-- On the grid of the multiples of `10 ^ place`, the point nearest to the value among its
two neighbours that read back; of two equally near ones the even one. -/
def onGrid? (interval : Interval) (unit : Int) (place : Int) : Option Nat :=
  let scale := Nat.pow 2 unit.toNat * Nat.pow 10 (-place).toNat
  let step := Nat.pow 10 place.toNat * Nat.pow 2 (-unit).toNat
  let value := interval.value * scale
  let below := value / step
  let above := below + 1
  match interval.holds (below * step) scale, interval.holds (above * step) scale with
  | true, true =>
      let down := value - below * step
      let up := above * step - value
      if down < up then some below
      else if up < down then some above
      else if below % 2 == 0 then some below else some above
  | true, false => some below
  | false, true => some above
  | false, false => none

def stripZeros : Nat → Scaled → Scaled
  | 0, number => number
  | fuel + 1, number =>
      if number.coefficient ≠ 0 ∧ number.coefficient % 10 = 0 then
        stripZeros fuel ⟨number.coefficient / 10, number.exponent + 1⟩
      else number

def searchGrids (interval : Interval) (unit place : Int) : Nat → Nat → Scaled
  | 0, digits => ⟨0, place - Int.ofNat digits⟩
  | fuel + 1, digits =>
      match onGrid? interval unit (place - Int.ofNat digits) with
      | some point => stripZeros 20 ⟨point, place - Int.ofNat digits⟩
      | none => searchGrids interval unit place fuel (digits + 1)

/-- The fewest digits that read back as `mantissa * 2 ^ exponent`, and of those the
nearest: seventeen digits always suffice. -/
def shortest (mantissa : Nat) (exponent : Int) : Scaled :=
  if mantissa = 0 then ⟨0, 0⟩
  else
    let place := leadingPlace (numerator mantissa exponent) (denominator exponent)
    searchGrids (Interval.around mantissa exponent) (exponent - 2) place 17 1

end BuildPipeline.Decimal
