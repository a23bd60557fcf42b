import BuildPipeline.Decimal.Shortest

namespace BuildPipeline.Decimal

/-- How a number is laid out: which decimal exponents are written positionally, the least
number of exponent digits, and the texts of the values that have no digits. -/
structure Layout where
  lowest : Int
  limit : Int
  exponentDigits : Nat
  infinity : String
  undefined : String

namespace Layout

/-- Positional from `0.0001` up to sixteen digits before the point, always with a
fraction. -/
def plain : Layout :=
  { lowest := -4, limit := 16, exponentDigits := 2, infinity := "inf", undefined := "nan" }

def interchange : Layout :=
  { plain with infinity := "Infinity", undefined := "NaN" }

def zeros (count : Nat) : List Char :=
  List.replicate count '0'

def positional (digits : List Char) (point : Int) : List Char :=
  if point ≤ 0 then '0' :: '.' :: zeros (-point).toNat ++ digits
  else if Int.ofNat digits.length ≤ point then
    digits ++ zeros (point.toNat - digits.length) ++ ['.', '0']
  else digits.take point.toNat ++ '.' :: digits.drop point.toNat

def scientific (layout : Layout) (digits : List Char) (exponent : Int) : List Char :=
  let places := Nat.toDigits 10 exponent.natAbs
  digits.take 1 ++ (if digits.length ≤ 1 then [] else '.' :: digits.drop 1)
    ++ ['e', if exponent < 0 then '-' else '+']
    ++ zeros (layout.exponentDigits - places.length) ++ places

def magnitude (layout : Layout) (number : Scaled) : List Char :=
  if number.coefficient = 0 then ['0', '.', '0']
  else
    let digits := Nat.toDigits 10 number.coefficient
    let point := number.exponent + Int.ofNat digits.length
    if layout.lowest ≤ point - 1 ∧ point - 1 < layout.limit then positional digits point
    else scientific layout digits (point - 1)

def write (layout : Layout) (x : Float) : String :=
  let binary := Binary.ofFloat x
  let sign := if binary.negative then "-" else ""
  match binary.magnitude with
  | .undefined => layout.undefined
  | .infinite => sign ++ layout.infinity
  | .finite m q => sign ++ String.ofList (layout.magnitude (shortest m q))

end Layout

/-- A fixed number of places after the point, the exact value rounded with ties to even. -/
def fixedDigits (places scaled : Nat) : List Char :=
  let digits := Nat.toDigits 10 scaled
  let filled := Layout.zeros (places + 1 - digits.length) ++ digits
  let whole := filled.length - places
  filled.take whole ++ (if places = 0 then [] else '.' :: filled.drop whole)

def fixed (places : Nat) (x : Float) : String :=
  let binary := Binary.ofFloat x
  let sign := if binary.negative then "-" else ""
  match binary.magnitude with
  | .undefined => "nan"
  | .infinite => sign ++ "inf"
  | .finite m q =>
      sign ++ String.ofList
        (fixedDigits places (roundQuotient (numerator m q * Nat.pow 10 places)
          (denominator q)))

end BuildPipeline.Decimal
