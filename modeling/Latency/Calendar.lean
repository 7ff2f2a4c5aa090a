/-!
# Dates and times of day

Dates of the proleptic Gregorian calendar from year 1 to 9999, and times with microseconds and an
offset from UTC.
-/

namespace Latency

structure Date where
  year : Nat
  month : Nat
  day : Nat
deriving Repr, DecidableEq

/-- A time on a day; the offset from UTC is in minutes, if it is known. -/
structure Moment where
  date : Date
  hour : Nat := 0
  minute : Nat := 0
  second : Nat := 0
  microsecond : Nat := 0
  offset : Option Int := none
deriving Repr, DecidableEq

def isLeapYear (year : Nat) : Bool :=
  year % 4 == 0 && (year % 100 != 0 || year % 400 == 0)

def daysInMonth (year month : Nat) : Nat :=
  match month with
  | 2 => if isLeapYear year then 29 else 28
  | 4 | 6 | 9 | 11 => 30
  | _ => 31

def Date.isValid (d : Date) : Bool :=
  decide (1 ≤ d.year) && decide (d.year ≤ 9999) && decide (1 ≤ d.month) && decide (d.month ≤ 12) &&
    decide (1 ≤ d.day) && decide (d.day ≤ daysInMonth d.year d.month)

def Moment.isValid (m : Moment) : Bool :=
  m.date.isValid && decide (m.hour < 24) && decide (m.minute < 60) && decide (m.second < 60) &&
    (m.offset.all fun o => decide (o.natAbs < 1440))

def Date.ordinal (d : Date) : Nat :=
  let past := d.year - 1
  let months := (List.range (d.month - 1)).foldl (fun days i => days + daysInMonth d.year (i + 1)) 0
  365 * past + past / 4 - past / 100 + past / 400 + months + d.day

/-- The microseconds from the beginning of the calendar, at UTC if the offset is known. -/
def Moment.instant (m : Moment) : Int :=
  let minutes := (m.date.ordinal * 24 + m.hour) * 60 + m.minute
  ((minutes - m.offset.getD 0) * 60 + m.second) * 1000000 + m.microsecond

/-- Whether two moments are one; an offset that is known and one that is not are never the same. -/
def Moment.same (a b : Moment) : Bool :=
  a.offset.isSome == b.offset.isSome && a.instant == b.instant

def padded (width n : Nat) : String :=
  let digits := toString n
  String.ofList (List.replicate (width - digits.length) '0') ++ digits

def Date.text (d : Date) : String :=
  padded 4 d.year ++ "-" ++ padded 2 d.month ++ "-" ++ padded 2 d.day

def offsetText (minutes : Int) : String :=
  let n := minutes.natAbs
  (if minutes < 0 then "-" else "+") ++ padded 2 (n / 60) ++ ":" ++ padded 2 (n % 60)

def Moment.clockText (m : Moment) : String :=
  padded 2 m.hour ++ ":" ++ padded 2 m.minute ++ ":" ++ padded 2 m.second

def Moment.text (m : Moment) : String :=
  m.date.text ++ " " ++ m.clockText ++
    (if m.microsecond = 0 then "" else "." ++ padded 6 m.microsecond) ++
    (match m.offset with
     | some o => offsetText o
     | none => "")

/-- Year, month and day in a stamp, where the year has no zeros in front. -/
def Date.stamp (d : Date) : String :=
  toString d.year ++ "-" ++ padded 2 d.month ++ "-" ++ padded 2 d.day

def Moment.stamp (m : Moment) : String :=
  m.date.stamp ++ "T" ++ m.clockText ++ "Z"

end Latency
