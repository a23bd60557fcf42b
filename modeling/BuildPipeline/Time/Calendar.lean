import BuildPipeline.Text.Basic

namespace BuildPipeline

/-! Dates.  A leap year comes every four years, but of the centuries only every fourth is
one. -/

namespace Calendar

def isLeap (year : Nat) : Bool :=
  year % 4 == 0 && (year % 100 != 0 || year % 400 == 0)

def daysIn (year month : Nat) : Nat :=
  if month = 2 then if isLeap year then 29 else 28
  else if month = 4 ∨ month = 6 ∨ month = 9 ∨ month = 11 then 30
  else 31

def dateText (year month day : Nat) : String :=
  Text.padded 4 year ++ "-" ++ Text.padded 2 month ++ "-" ++ Text.padded 2 day

/-- The date of a day counted from the start of 1970.  Years are taken to begin in March,
so that the day a leap year adds is the last of its year, and to repeat every 400 years. -/
def civil (day : Int) : Int × Nat × Nat :=
  let shifted := day + 719468
  let era := Int.fdiv shifted 146097
  let dayOfEra := (Int.fmod shifted 146097).toNat
  let yearOfEra := (dayOfEra - dayOfEra / 1460 + dayOfEra / 36524 - dayOfEra / 146096) / 365
  let dayOfYear := dayOfEra - (365 * yearOfEra + yearOfEra / 4 - yearOfEra / 100)
  let shiftedMonth := (5 * dayOfYear + 2) / 153
  let dayOfMonth := dayOfYear - (153 * shiftedMonth + 2) / 5 + 1
  let month := if shiftedMonth < 10 then shiftedMonth + 3 else shiftedMonth - 9
  let year := Int.ofNat yearOfEra + era * 400 + (if month ≤ 2 then 1 else 0)
  (year, month, dayOfMonth)

def dayNumber (year month day : Nat) : Int :=
  let shiftedYear := Int.ofNat year - (if month ≤ 2 then 1 else 0)
  let era := Int.fdiv shiftedYear 400
  let yearOfEra := (Int.fmod shiftedYear 400).toNat
  let shiftedMonth := if 2 < month then month - 3 else month + 9
  let dayOfYear := (153 * shiftedMonth + 2) / 5 + day - 1
  let dayOfEra := 365 * yearOfEra + yearOfEra / 4 - yearOfEra / 100 + dayOfYear
  era * 146097 + Int.ofNat dayOfEra - 719468

example : civil 0 = (1970, 1, 1) := by decide

example : civil 19723 = (2024, 1, 1) := by decide

example : civil 19782 = (2024, 2, 29) := by decide

example : dayNumber 2024 2 29 = 19782 := by decide

example : dayNumber 1 1 1 = -719162 := by decide

end Calendar

end BuildPipeline
