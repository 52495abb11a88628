/-!
# Dates and times

Calendar dates and times of day with an optional distance from universal time. Only moments
that exist are built: the month and the day are checked against the calendar, and the time of
day and the distance against their limits.
-/

namespace ClosureCapture

/-- A calendar date. -/
structure Date where
  year : Nat
  month : Nat
  day : Nat
  deriving DecidableEq, Repr

/-- A date with a time of day. -/
structure Moment where
  date : Date
  hour : Nat
  minute : Nat
  second : Nat
  microsecond : Nat
  /-- Distance from universal time in seconds, when it is known. -/
  zone : Option Int
  deriving DecidableEq, Repr

/-- Whether a year has a leap day. -/
def isLeapYear (year : Nat) : Bool :=
  year % 4 == 0 && (year % 100 != 0 || year % 400 == 0)

/-- The number of days of a month. -/
def daysInMonth (year month : Nat) : Nat :=
  if month = 2 then (if isLeapYear year then 29 else 28)
  else if month = 4 ∨ month = 6 ∨ month = 9 ∨ month = 11 then 30
  else 31

/-- Whether a date exists in the calendar. -/
def Date.exists (date : Date) : Bool :=
  1 ≤ date.year && date.year ≤ 9999 && 1 ≤ date.month && date.month ≤ 12 &&
    1 ≤ date.day && date.day ≤ daysInMonth date.year date.month

/-- Whether a moment exists: its date, its time of day and its distance are within limits. -/
def Moment.exists (moment : Moment) : Bool :=
  moment.date.exists && moment.hour < 24 && moment.minute < 60 && moment.second < 60 &&
    moment.microsecond < 1000000 &&
    (moment.zone.all fun seconds => seconds.natAbs < 86400)

/-- The year, the month and the day of a date. -/
def Date.parts (date : Date) : List Nat :=
  [date.year, date.month, date.day]

/-- The number of a date, counted in days from the first one of the calendar. -/
def Date.ordinal (date : Date) : Nat :=
  let years := date.year - 1
  let months := (List.range (date.month - 1)).map fun month => daysInMonth date.year (month + 1)
  years * 365 + years / 4 - years / 100 + years / 400 + months.foldl (· + ·) 0 + date.day

/-- The parts of a moment without its distance from universal time. -/
def Moment.parts (moment : Moment) : List Nat :=
  moment.date.parts ++ [moment.hour, moment.minute, moment.second, moment.microsecond]

/-- A moment in microseconds of universal time, when its distance from it is known. -/
def Moment.instant? (moment : Moment) : Option Int :=
  moment.zone.map fun zone =>
    let minutes := (moment.date.ordinal * 24 + moment.hour) * 60 + moment.minute
    (((minutes * 60 + moment.second : Nat) : Int) - zone) * 1000000 + moment.microsecond

/-- Whether two moments are equal: the instants count when both are known. -/
def Moment.same (first second : Moment) : Bool :=
  match first.instant?, second.instant? with
  | some first, some second => first == second
  | _, _ => first == second

/-- A number with leading zeros up to a width. -/
def paddedNumber (width value : Nat) : String :=
  let digits := toString value
  String.ofList (List.replicate (width - digits.length) '0') ++ digits

/-- A date as year, month and day. -/
def Date.text (date : Date) : String :=
  paddedNumber 4 date.year ++ "-" ++ paddedNumber 2 date.month ++ "-" ++
    paddedNumber 2 date.day

/-- A distance from universal time as signed hours and minutes. -/
def zoneText (seconds : Int) : String :=
  let minutes := seconds.natAbs / 60
  (if seconds < 0 then "-" else "+") ++ paddedNumber 2 (minutes / 60) ++ ":" ++
    paddedNumber 2 (minutes % 60)

/-- A moment as its date, its time of day and its distance. -/
def Moment.text (moment : Moment) : String :=
  moment.date.text ++ " " ++ paddedNumber 2 moment.hour ++ ":" ++
    paddedNumber 2 moment.minute ++ ":" ++ paddedNumber 2 moment.second ++
    (if moment.microsecond = 0 then "" else "." ++ paddedNumber 6 moment.microsecond) ++
    (moment.zone.map zoneText).getD ""

/-- A date written as the call that builds it. -/
def Date.literal (date : Date) : String :=
  "datetime.date(" ++ toString date.year ++ ", " ++ toString date.month ++ ", " ++
    toString date.day ++ ")"

/-- A distance from universal time written as the call that builds it. Whole negative days are
split off, so that the seconds are never negative. -/
def zoneLiteral (seconds : Int) : String :=
  if seconds = 0 then "datetime.timezone.utc"
  else
    let delta :=
      if seconds < 0 then "days=-1, seconds=" ++ toString (seconds + 86400)
      else "seconds=" ++ toString seconds
    "datetime.timezone(datetime.timedelta(" ++ delta ++ "))"

/-- A moment written as the call that builds it. Zero seconds are left out at the end. -/
def Moment.literal (moment : Moment) : String :=
  let date := moment.date
  let always := [date.year, date.month, date.day, moment.hour, moment.minute]
  let fields :=
    if moment.microsecond ≠ 0 then always ++ [moment.second, moment.microsecond]
    else if moment.second ≠ 0 then always ++ [moment.second]
    else always
  let zone := match moment.zone with
    | none => ""
    | some seconds => ", tzinfo=" ++ zoneLiteral seconds
  "datetime.datetime(" ++ ", ".intercalate (fields.map toString) ++ zone ++ ")"

end ClosureCapture
