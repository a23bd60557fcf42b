import BuildPipeline.Decimal.Whole
import BuildPipeline.Document.Yaml.Cursor
import BuildPipeline.Text.Basic

namespace BuildPipeline.Document.Yaml

/-- A date, perhaps with a time of day and the offset of its clock in minutes, as its
digits give them: no day and no hour is out of range yet.  A padded date has two digits
for its month and its day. -/
structure ClockTime where
  hour : Nat
  minute : Nat
  second : Nat
  micros : Nat
deriving DecidableEq, Repr

structure Stamp where
  year : Nat
  month : Nat
  day : Nat
  isPadded : Bool
  time : Option ClockTime := none
  offset : Option Int := none
deriving DecidableEq, Repr

namespace Stamp

def isDigit (c : Char) : Bool :=
  '0' ≤ c && c ≤ '9'

def number (digits : List Char) : Nat :=
  Decimal.ofDigits 10 (digits.map fun c => c.toNat - 0x30)

def digits? (least most : Nat) (text : List Char) : Option (List Char × List Char) :=
  let run := (text.take most).takeWhile isDigit
  if least ≤ run.length then some (run, text.drop run.length) else none

def after? (mark : Char) : List Char → Option (List Char)
  | [] => none
  | c :: rest => if c = mark then some rest else none

def date? (text : List Char) : Option (Stamp × List Char) := do
  let (year, text) ← digits? 4 4 text
  let text ← after? '-' text
  let (month, text) ← digits? 1 2 text
  let text ← after? '-' text
  let (day, text) ← digits? 1 2 text
  let isPadded := month.length == 2 && day.length == 2
  return ({ year := number year, month := number month, day := number day, isPadded }, text)

/-- Of a fraction of a second six digits count. -/
def microsOf (fraction : List Char) : Nat :=
  let digits := fraction.take 6
  number (digits ++ List.replicate (6 - digits.length) '0')

def fraction (text : List Char) : List Char × List Char :=
  match text with
  | '.' :: rest => rest.span isDigit
  | _ => ([], text)

def time? (text : List Char) : Option (ClockTime × List Char) := do
  let (hour, text) ← digits? 1 2 text
  let text ← after? ':' text
  let (minute, text) ← digits? 2 2 text
  let text ← after? ':' text
  let (second, text) ← digits? 2 2 text
  let (fraction, text) := fraction text
  return (⟨number hour, number minute, number second, microsOf fraction⟩, text)

def isGap (c : Char) : Bool :=
  c == ' ' || c == '\t'

def afterDate? (text : List Char) : Option (List Char) :=
  match text with
  | [] => none
  | c :: rest =>
      if c = 'T' ∨ c = 't' then some rest
      else if isGap c then some (rest.dropWhile isGap)
      else none

def minutes? : List Char → Option Nat
  | [] => some 0
  | ':' :: rest =>
      match digits? 2 2 rest with
      | some (minutes, []) => some (number minutes)
      | _ => none
  | _ => none

def signedOffset? (sign : Int) (text : List Char) : Option Int := do
  let (hours, text) ← digits? 1 2 text
  let minutes ← minutes? text
  return sign * Int.ofNat (number hours * 60 + minutes)

/-- What may come after the time: nothing, or a letter for universal time or a signed
offset, perhaps after a gap. -/
def offset? (text : List Char) : Option (Option Int) :=
  if text.isEmpty then some none
  else
    match text.dropWhile isGap with
    | ['Z'] => some (some 0)
    | '+' :: rest => (signedOffset? 1 rest).map some
    | '-' :: rest => (signedOffset? (-1) rest).map some
    | _ => none

def ofText? (text : List Char) : Option Stamp := do
  let (stamp, text) ← date? text
  if text.isEmpty then return stamp
  let (time, text) ← time? (← afterDate? text)
  let offset ← offset? text
  return { stamp with time := some time, offset }

/-! A date of a day that exists, and a moment of a time that exists on a clock that is
less than a day away from universal time. -/

def checkOffset (minutes : Int) : Except Fault Unit :=
  if minutes.natAbs < 1440 then .ok ()
  else
    .error (.noSuchValue
      ("offset must be a timedelta strictly between -timedelta(hours=24) and "
        ++ "timedelta(hours=24), not " ++ Moment.lengthText (minutes * 60) ++ "."))

def checkDate (stamp : Stamp) : Except Fault Unit :=
  if stamp.year = 0 then .error (.noSuchValue "year 0 is out of range")
  else if stamp.month = 0 ∨ 12 < stamp.month then
    .error (.noSuchValue "month must be in 1..12")
  else if stamp.day = 0 ∨ Calendar.daysIn stamp.year stamp.month < stamp.day then
    .error (.noSuchValue "day is out of range for month")
  else .ok ()

def checkTime (time : ClockTime) : Except Fault Unit :=
  if 23 < time.hour then .error (.noSuchValue "hour must be in 0..23")
  else if 59 < time.minute then .error (.noSuchValue "minute must be in 0..59")
  else if 59 < time.second then .error (.noSuchValue "second must be in 0..59")
  else .ok ()

def value (stamp : Stamp) : Except Fault Value := do
  match stamp.time with
  | none =>
      checkDate stamp
      return .date stamp.year stamp.month stamp.day
  | some time =>
      if let some minutes := stamp.offset then checkOffset minutes
      checkDate stamp
      checkTime time
      return .moment
        { year := stamp.year, month := stamp.month, day := stamp.day
          hour := time.hour, minute := time.minute, second := time.second
          micros := time.micros, offset := stamp.offset }

end Stamp

end BuildPipeline.Document.Yaml
