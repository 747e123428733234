import CycleSchedule.Calendar
import CycleSchedule.Text.Digit

/-! Dates and times as documents write them: a day, perhaps with a time of day and a zone. -/

namespace CycleSchedule.Yaml

/-- A time of day as it is written: the digits of a fraction of a second, and the minutes by which a
zone is ahead. -/
structure WrittenTime where
  hour : Nat
  minute : Nat
  second : Nat
  fraction : List Char
  offset : Option Int
deriving DecidableEq, Repr

/-- A day as it is written, perhaps with a time; `isPadded` says that month and day have two digits.
-/
structure Timestamp where
  year : Nat
  month : Nat
  day : Nat
  isPadded : Bool
  time : Option WrittenTime
deriving DecidableEq, Repr

/-- A number of at least and at most so many digits at the head of a text, and what follows it. -/
def shortNumber? (least most : Nat) (cs : List Char) : Option (Nat × List Char) :=
  -- Digits past the greatest number of them are left for what follows.
  let digits := (cs.take most).takeWhile Text.isAsciiDigit
  if digits.length < least then none else some (Text.digitsValue digits, cs.drop digits.length)

/-- What follows a character that has to come first. -/
def after? (c : Char) : List Char → Option (List Char)
  | [] => none
  | first :: rest => if first = c then some rest else none

/-- Whether a character separates a time from what is around it. -/
def isTimeGap (c : Char) : Bool := c = ' ' || c = '\t'

/-- A zone that ends a time: none, the common one, or hours and perhaps minutes ahead or behind. -/
def zone? (cs : List Char) : Option (Option Int) :=
  match cs.dropWhile isTimeGap with
  -- A gap without a zone behind it is a mistake.
  | [] => if cs.isEmpty then some none else none
  -- The letter stands for the common time.
  | ['Z'] => some (some 0)
  | sign :: rest => do
    let (hours, rest) ← shortNumber? 1 2 rest
    -- The minutes of a zone may be left out.
    let minutes ← if rest.isEmpty then some 0 else do
      let (minutes, rest) ← shortNumber? 2 2 (← after? ':' rest)
      if rest.isEmpty then some minutes else none
    let offset : Int := hours * 60 + minutes
    if sign = '+' then some (some offset)
    else if sign = '-' then some (some (-offset))
    else none

/-- A time of day up to the end of a text. -/
def writtenTime? (cs : List Char) : Option WrittenTime := do
  let (hour, rest) ← shortNumber? 1 2 cs
  let (minute, rest) ← shortNumber? 2 2 (← after? ':' rest)
  let (second, rest) ← shortNumber? 2 2 (← after? ':' rest)
  -- A fraction may have no digits behind its point.
  let (fraction, rest) := match rest with
    | '.' :: more => (more.takeWhile Text.isAsciiDigit, more.dropWhile Text.isAsciiDigit)
    | _ => ([], rest)
  let offset ← zone? rest
  return ⟨hour, minute, second, fraction, offset⟩

/-- A time after what separates it from its day: a letter or a gap. -/
def timePart? : List Char → Option WrittenTime
  | 'T' :: rest => writtenTime? rest
  | 't' :: rest => writtenTime? rest
  | c :: rest => if isTimeGap c then writtenTime? (rest.dropWhile isTimeGap) else none
  | [] => none

/-- The day, and the time if there is one, that a text writes. -/
def timestamp? (cs : List Char) : Option Timestamp := do
  let (year, rest) ← shortNumber? 4 4 cs
  let monthAndDay ← after? '-' rest
  let (month, rest) ← shortNumber? 1 2 monthAndDay
  let (day, rest) ← shortNumber? 1 2 (← after? '-' rest)
  -- The day alone is only a date if its month and day have two digits each.
  let isPadded := monthAndDay.length - rest.length = 5
  if rest.isEmpty then return ⟨year, month, day, isPadded, none⟩
  let time ← timePart? rest
  return ⟨year, month, day, isPadded, some time⟩

/-- The microseconds that the digits of a fraction of a second spell. -/
def microseconds (fraction : List Char) : Nat :=
  -- What is finer than a microsecond is cut off.
  let digits := fraction.take 6
  Text.digitsValue (digits ++ List.replicate (6 - digits.length) '0')

end CycleSchedule.Yaml
