import BuildPipeline.Decimal.Reading
import BuildPipeline.Time.Calendar

namespace BuildPipeline

/-- A moment, as microseconds from the start of 1970 in universal time. -/
structure Instant where
  micros : Int
deriving DecidableEq, Repr, Inhabited

namespace Instant

def microsPerSecond : Int := 1000000

def secondsPerDay : Int := 86400

/-- Moments lie in the years 1 to 9999, whose dates have four digits for the year. -/
def midnight (year month day : Nat) : Int :=
  Calendar.dayNumber year month day * secondsPerDay * microsPerSecond

def ofMicros? (micros : Int) : Option Instant :=
  if midnight 1 1 1 ≤ micros ∧ micros < midnight 10000 1 1 then some ⟨micros⟩ else none

def after? (start : Instant) (micros : Int) : Option Instant :=
  ofMicros? (start.micros + micros)

/-- Written with its date, its time of day and a zero offset; a fraction of a second has
six digits and is left out when it is zero. -/
def text (instant : Instant) : String :=
  let seconds := Int.fdiv instant.micros microsPerSecond
  let fraction := (Int.fmod instant.micros microsPerSecond).toNat
  let (year, month, day) := Calendar.civil (Int.fdiv seconds secondsPerDay)
  let inDay := (Int.fmod seconds secondsPerDay).toNat
  Calendar.dateText year.toNat month day ++ "T"
    ++ Text.padded 2 (inDay / 3600) ++ ":" ++ Text.padded 2 (inDay / 60 % 60) ++ ":"
    ++ Text.padded 2 (inDay % 60)
    ++ (if fraction = 0 then "" else "." ++ Text.padded 6 fraction)
    ++ "+00:00"

def seconds (first last : Instant) : Float :=
  let micros := last.micros - first.micros
  Decimal.toFloat (micros < 0) micros.natAbs (-6)

end Instant

end BuildPipeline
