import CycleSchedule.Decimal.Shortest
import CycleSchedule.Text.Phrase
import CycleSchedule.Text.Quoted
import CycleSchedule.Value.Basic

/-! How values read in messages. -/

namespace CycleSchedule

/-- Numbers stand in plain notation from four zeros after the point to sixteen digits before it, and
exponents have two digits at least. -/
def messageLayout : Decimal.Layout :=
  { leastPoint := -3
    greatestPoint := 16
    exponentDigits := 2
    infinity := "inf"
    notANumber := "nan" }

/-- Texts in a row, a comma and a space between them. -/
def commaSeparated (parts : List Phrase) : Phrase := .joined ", " parts

/-- What is made of parts, by its name and with the parts in parentheses. -/
def constructed (name : String) (parts : List Phrase) : Phrase :=
  name ++ "(" ++ commaSeparated parts ++ ")"

/-- A day inside a message. -/
def Date.literal (date : Date) : Phrase :=
  constructed "datetime.date" ([date.year, date.month, date.day].map .count)

/-- A span of minutes inside a message: whole days, of which there are fewer than none before the
common time, and the seconds on top of them. -/
def spanLiteral (minutes : Int) : Phrase :=
  -- The days are rounded down, so that the seconds on top are never negative.
  let days := minutes.fdiv 1440
  let seconds := minutes.fmod 1440 * 60
  constructed "datetime.timedelta"
    -- What is zero is not mentioned.
    ((if days = 0 then [] else ["days=" ++ Phrase.number days]) ++
      (if seconds = 0 then [] else ["seconds=" ++ Phrase.number seconds]))

/-- An offset from the common time inside a message. -/
def offsetLiteral (minutes : Int) : Phrase :=
  if minutes = 0 then "datetime.timezone.utc"
  -- A span of any other length has no name of its own.
  else constructed "datetime.timezone" [spanLiteral minutes]

/-- A time inside a message; seconds and their parts are left out where they are zero. -/
def Moment.literal (moment : Moment) : Phrase :=
  let date := [moment.date.year, moment.date.month, moment.date.day]
  -- Seconds are left out where they and all that is finer are zero.
  let fine :=
    if moment.microsecond ≠ 0 then [moment.second, moment.microsecond]
    else if moment.second ≠ 0 then [moment.second]
    else []
  let zone : List Phrase := match moment.offset with
    | some minutes => ["tzinfo=" ++ offsetLiteral minutes]
    | none => []
  constructed "datetime.datetime"
    ((date ++ [moment.hour, moment.minute] ++ fine).map .count ++ zone)

/-- An atom inside a message, text in quotation marks. -/
def Atom.literal : Atom → Phrase
  -- Texts stand in quotes, numbers as they are.
  | .null => "None"
  | .bool b => if b then "True" else "False"
  | .int n => .number n
  | .float x => Decimal.render messageLayout x
  | .text s => Text.quote s
  | .bytes data => Text.quoteBytes data
  | .date day => day.literal
  | .moment time => time.literal

mutual

/-- A value inside a message, text in quotation marks. -/
def Value.literal : Value → Phrase
  | .atom a => a.literal
  | .list items => "[" ++ commaSeparated (literalItems items) ++ "]"
  -- A set without items cannot be told from a mapping in braces.
  | .set [] => constructed "set" []
  | .set items => "\x7b" ++ commaSeparated (items.map Atom.literal) ++ "\x7d"
  | .map entries => "\x7b" ++ commaSeparated (literalEntries entries) ++ "\x7d"

/-- The items of a list inside a message. -/
def literalItems : List Value → List Phrase
  | [] => []
  | item :: items => item.literal :: literalItems items

/-- The entries of a mapping inside a message. -/
def literalEntries : List (Atom × Value) → List Phrase
  | [] => []
  | (key, value) :: entries => (key.literal ++ ": " ++ value.literal) :: literalEntries entries

end

/-- A value as part of running text: a text stands bare. -/
def Value.display : Value → Phrase
  -- Only a text by itself stands bare; inside of anything it is quoted.
  | .text s => s
  | value => value.literal

end CycleSchedule
