import CycleSchedule.Value.Display

/-! Why a document cannot be read. -/

namespace CycleSchedule.Yaml

/-- Why a document cannot be read: it is not well formed, or something in it stands for no value. -/
inductive Fault where
  | notWellFormed
  | unknownCharacter
  | hugeCharacter
  | badInteger (base : Nat) (text : List Char)
  | longInteger (digits : Nat)
  | badFloat (text : List Char)
  | noNumber
  | badTruth (word : String)
  | badTimestamp
  | nestedTimestamp
  | noDate (fault : CalendarFault)
  | endless
  | tooDeep
deriving DecidableEq, Repr

/-- How many characters of a text are shown that is no whole number. -/
def shownLimit : Nat := 200

/-- How a fault of the calendar reads. -/
def calendarMessage : CalendarFault → String
  | .year year => "year " ++ toString year ++ " is out of range"
  | .month => "month must be in 1..12"
  | .day => "day is out of range for month"
  | .hour => "hour must be in 0..23"
  | .minute => "minute must be in 0..59"
  | .second => "second must be in 0..59"
  | .offset minutes =>
    "offset must be a timedelta strictly between -timedelta(hours=24) and timedelta(hours=24), " ++
      "not " ++ (spanLiteral minutes).spelled ++ "."

/-- How a fault reads. -/
def Fault.message : Fault → String
  | notWellFormed => "the document is not well formed"
  | unknownCharacter => "chr() arg not in range(0x110000)"
  | hugeCharacter => "the code of a character is too large"
  | badInteger base text =>
    -- Only the beginning of a long text is shown.
    let shown := (Text.quote (String.ofList text)).toList.take shownLimit
    "invalid literal for int() with base " ++ toString base ++ ": " ++ String.ofList shown
  | longInteger digits => Text.digitLimitMessage digits
  | badFloat text => "could not convert string to float: " ++ Text.quote (String.ofList text)
  | noNumber => "there is nothing where a number should be"
  | badTruth word => Text.quote word
  | badTimestamp => "there is no date where one should be"
  | nestedTimestamp => "a date has to be a text"
  | noDate fault => calendarMessage fault
  | endless => "a text is looked for without an end"
  | tooDeep => "too many collections stand inside each other"

end CycleSchedule.Yaml
