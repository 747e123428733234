/-! Dates and times of day, and the instants that they stand for. -/

namespace CycleSchedule

/-- A day of the calendar. -/
structure Date where
  year : Nat
  month : Nat
  day : Nat
deriving DecidableEq, Repr

/-- A time of a day to the microsecond, and by how many minutes it is ahead of the common time if
that is known. -/
structure Moment where
  date : Date
  hour : Nat
  minute : Nat
  second : Nat
  microsecond : Nat
  offset : Option Int
deriving DecidableEq, Repr

/-- Why there is no such day or time. -/
inductive CalendarFault where
  | year (year : Nat)
  | month
  | day
  | hour
  | minute
  | second
  | offset (minutes : Int)
deriving DecidableEq, Repr

namespace Date

/-- Whether a year has a day more. -/
def isLeap (year : Nat) : Bool := year % 4 = 0 && (year % 100 ≠ 0 || year % 400 = 0)

/-- The days of the months of a year. -/
def monthLengths (year : Nat) : List Nat :=
  [31, if isLeap year then 29 else 28, 31, 30, 31, 30, 31, 31, 30, 31, 30, 31]

/-- The last year that there is. -/
def lastYear : Nat := 9999

/-- A day that exists; the year is looked at first and the day last. -/
def make (year month day : Nat) : Except CalendarFault Date :=
  -- The year 1 is the first one; there is no year 0.
  if year < 1 || lastYear < year then .error (.year year)
  else if month < 1 then .error .month
  -- Months are counted from one, the list from zero.
  else match (monthLengths year)[month - 1]? with
    | none => .error .month
    | some length => if day < 1 || length < day then .error .day else .ok ⟨year, month, day⟩

/-- The days up to a day, counted from the first day of the first year. -/
def count (date : Date) : Nat :=
  -- The days of the years that are over, with those that leap years have more.
  let past := date.year - 1
  365 * past + past / 4 - past / 100 + past / 400 +
    ((monthLengths date.year).take (date.month - 1)).foldr (· + ·) 0 + date.day

end Date

namespace Moment

/-- The minutes of a day, which no offset reaches. -/
def dayMinutes : Int := 1440

/-- A time that exists; the offset is looked at first and the second last. -/
def make (year month day hour minute second microsecond : Nat) (offset : Option Int) :
    Except CalendarFault Moment := do
  let ahead := offset.getD 0
  -- The offset is looked at before the day and the time.
  if ahead ≤ -dayMinutes || dayMinutes ≤ ahead then throw (.offset ahead)
  let date ← Date.make year month day
  if 23 < hour then throw .hour
  if 59 < minute then throw .minute
  if 59 < second then throw .second
  return ⟨date, hour, minute, second, microsecond, offset⟩

/-- The microseconds up to a time, less those by which it is ahead. -/
def instant (moment : Moment) : Int :=
  let minutes : Int := (moment.date.count * 24 + moment.hour) * 60 + moment.minute
  -- An offset says how far the local time is ahead, so it is taken off.
  ((minutes - moment.offset.getD 0) * 60 + moment.second) * 1000000 + moment.microsecond

/-- Whether two times are one; with an offset and without one they never are. -/
def isSame (a b : Moment) : Bool := a.offset.isSome = b.offset.isSome && a.instant = b.instant

end Moment

end CycleSchedule
