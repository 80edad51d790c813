import Groundplan.Text.Numeral

/-!
# Dates and moments

A date is a day of the Gregorian calendar from year 1 to 9999. A moment is a time of a day, to the
microsecond, with or without an offset from universal time; two moments with offsets are the same
when they are the same instant.
-/

namespace Groundplan

/-- A day of the calendar. -/
structure Date where
  year : Nat
  month : Nat
  day : Nat
  deriving DecidableEq, Repr, Inhabited

/-- A time of a day; the offset from universal time is in minutes. -/
structure Moment where
  date : Date
  hour : Nat
  minute : Nat
  second : Nat
  micro : Nat
  offset : Option Int
  deriving DecidableEq, Repr, Inhabited

/-- Why numbers form no date or moment. -/
inductive CalendarFault where
  | year (given : Nat)
  | month
  | day
  | hour
  | minute
  | second
  | offset (minutes : Int)
  deriving DecidableEq, Repr

namespace Date

def isLeap (year : Nat) : Bool :=
  year % 4 = 0 && (year % 100 ≠ 0 || year % 400 = 0)

def daysInMonth (year month : Nat) : Nat :=
  if month = 2 then (if isLeap year then 29 else 28)
  else if month = 4 || month = 6 || month = 9 || month = 11 then 30
  else 31

/-- The date with the given numbers, if there is one. -/
def make (year month day : Nat) : Except CalendarFault Date :=
  if year < 1 || 9999 < year then .error (.year year)
  else if month < 1 || 12 < month then .error .month
  else if day < 1 || daysInMonth year month < day then .error .day
  else .ok ⟨year, month, day⟩

/-- The number of days before a date, counted from the first day of year 1. -/
def ordinal (d : Date) : Nat :=
  let y := d.year - 1
  365 * y + y / 4 - y / 100 + y / 400 +
    (List.range (d.month - 1)).foldl (fun days m => days + daysInMonth d.year (m + 1)) (d.day - 1)

/-- Year, month and day with dashes between them. -/
def text (d : Date) : String :=
  String.ofList
    (Text.padded 4 d.year ++ '-' :: (Text.padded 2 d.month ++ '-' :: Text.padded 2 d.day))

/-- A date as messages show it. -/
def display (d : Date) : String :=
  "datetime.date(" ++ Text.decimal d.year ++ ", " ++ Text.decimal d.month ++ ", " ++
    Text.decimal d.day ++ ")"

end Date

namespace Moment

/-- A duration of whole minutes as messages show it: days, then the seconds of a day. -/
def displayDuration (minutes : Int) : String :=
  let days := minutes.fdiv 1440
  let seconds := (minutes.fmod 1440) * 60
  let parts :=
    (if days = 0 then [] else ["days=" ++ Text.decimalInt days]) ++
      (if seconds = 0 then [] else ["seconds=" ++ Text.decimalInt seconds])
  "datetime.timedelta(" ++ (if parts.isEmpty then "0" else ", ".intercalate parts) ++ ")"

/-- The moment with the given numbers, if there is one. The offset is judged first. -/
def make (year month day hour minute second micro : Nat) (offset : Option Int) :
    Except CalendarFault Moment := do
  if let some minutes := offset then
    if 1440 ≤ minutes.natAbs then throw (.offset minutes)
  let date ← Date.make year month day
  if 23 < hour then throw .hour
  if 59 < minute then throw .minute
  if 59 < second then throw .second
  return ⟨date, hour, minute, second, micro, offset⟩

/-- The time of day, with the microseconds if there are any. -/
def clock (m : Moment) : String :=
  String.ofList (Text.padded 2 m.hour ++ ':' :: (Text.padded 2 m.minute ++ ':' ::
    (Text.padded 2 m.second ++ (if m.micro = 0 then [] else '.' :: Text.padded 6 m.micro))))

/-- The offset as a sign, hours and minutes. -/
def offsetText (m : Moment) : String :=
  match m.offset with
  | none => ""
  | some minutes =>
    let n := minutes.natAbs
    String.ofList ((if minutes < 0 then '-' else '+') ::
      (Text.padded 2 (n / 60) ++ ':' :: Text.padded 2 (n % 60)))

/-- Date and time with the given separator between them. -/
def textWith (separator : String) (m : Moment) : String :=
  m.date.text ++ separator ++ m.clock ++ m.offsetText

def display (m : Moment) : String :=
  let numbers := [m.date.year, m.date.month, m.date.day, m.hour, m.minute] ++
    (if m.second = 0 && m.micro = 0 then [] else [m.second]) ++
    (if m.micro = 0 then [] else [m.micro])
  let zone := match m.offset with
    | none => []
    | some 0 => ["tzinfo=datetime.timezone.utc"]
    | some minutes => ["tzinfo=datetime.timezone(" ++ displayDuration minutes ++ ")"]
  "datetime.datetime(" ++ ", ".intercalate (numbers.map Text.decimal ++ zone) ++ ")"

/-- The microseconds from the start of year 1 in universal time, for a moment with an offset. -/
def instant? (m : Moment) : Option Int :=
  m.offset.map fun minutes =>
    let seconds : Int :=
      ((m.date.ordinal * 86400 + m.hour * 3600 + m.minute * 60 + m.second : Nat) : Int)
    (seconds - minutes * 60) * 1000000 + m.micro

/-- Whether two moments are the same: as instants if both have offsets, by their numbers if
neither has. -/
def same (a b : Moment) : Bool :=
  match a.instant?, b.instant? with
  | some i, some j => i = j
  | none, none => a = b
  | _, _ => false

end Moment

namespace CalendarFault

def message : CalendarFault → String
  | .year given => "year " ++ Text.decimal given ++ " is out of range"
  | .month => "month must be in 1..12"
  | .day => "day is out of range for month"
  | .hour => "hour must be in 0..23"
  | .minute => "minute must be in 0..59"
  | .second => "second must be in 0..59"
  | .offset minutes =>
    "offset must be a timedelta strictly between -timedelta(hours=24) and " ++
      "timedelta(hours=24), not " ++
      Moment.displayDuration minutes ++ "."

end CalendarFault

end Groundplan
