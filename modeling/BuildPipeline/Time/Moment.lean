import BuildPipeline.Time.Calendar

namespace BuildPipeline

/-- A date and a time of day as a document gives them, perhaps with the minutes by which
its clock is ahead of universal time. -/
structure Moment where
  year : Nat
  month : Nat
  day : Nat
  hour : Nat
  minute : Nat
  second : Nat
  micros : Nat := 0
  offset : Option Int := none
deriving DecidableEq, Repr, Inhabited

namespace Moment

def clockSeconds (moment : Moment) : Int :=
  Calendar.dayNumber moment.year moment.month moment.day * 86400
    + Int.ofNat ((moment.hour * 60 + moment.minute) * 60 + moment.second)

def clockMicros (moment : Moment) : Int :=
  moment.clockSeconds * 1000000 + Int.ofNat moment.micros

def instant? (moment : Moment) : Option Int :=
  moment.offset.map fun minutes => moment.clockMicros - minutes * 60000000

/-- Two moments with an offset are the same if they are one instant; a moment without one
is the same only as another without one. -/
def isSame (a b : Moment) : Bool :=
  match a.instant?, b.instant? with
  | some m, some n => m == n
  | none, none => a.clockMicros == b.clockMicros
  | _, _ => false

def offsetText (minutes : Int) : String :=
  let size := minutes.natAbs
  (if minutes < 0 then "-" else "+") ++ Text.padded 2 (size / 60) ++ ":"
  ++ Text.padded 2 (size % 60)

def timeText (moment : Moment) : String :=
  Text.padded 2 moment.hour ++ ":" ++ Text.padded 2 moment.minute ++ ":"
    ++ Text.padded 2 moment.second
    ++ (if moment.micros = 0 then "" else "." ++ Text.padded 6 moment.micros)

def text (moment : Moment) : String :=
  Calendar.dateText moment.year moment.month moment.day ++ " " ++ moment.timeText
    ++ (match moment.offset with
        | some minutes => offsetText minutes
        | none => "")

/-! A length of time is a number of days and a rest of seconds that is never negative, and
parts that are zero are left out at the end of a time and in a length of time. -/

def lengthText (seconds : Int) : String :=
  let days := Int.fdiv seconds 86400
  let rest := Int.fmod seconds 86400
  let parts :=
    (if days = 0 then [] else ["days=" ++ toString days])
      ++ (if rest = 0 then [] else ["seconds=" ++ toString rest])
  "datetime.timedelta(" ++ (if parts.isEmpty then "0" else Text.commaSeparated parts) ++ ")"

def zoneText (minutes : Int) : String :=
  if minutes = 0 then "datetime.timezone.utc"
  else "datetime.timezone(" ++ lengthText (minutes * 60) ++ ")"

def quoted (moment : Moment) : String :=
  let time :=
    if moment.micros ≠ 0 then [moment.second, moment.micros]
    else if moment.second ≠ 0 then [moment.second]
    else []
  let parts := [moment.year, moment.month, moment.day, moment.hour, moment.minute] ++ time
  let zone := moment.offset.toList.map fun minutes => "tzinfo=" ++ zoneText minutes
  "datetime.datetime(" ++ Text.commaSeparated (parts.map toString ++ zone) ++ ")"

end Moment

end BuildPipeline
