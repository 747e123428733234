import CycleSchedule.Text.Blank
import CycleSchedule.Text.Digit

/-! Whole numbers in a base, in digits of any script. -/

namespace CycleSchedule.Text

/-- Why a text spells no whole number in a base. -/
inductive IntegerFault where
  | malformed
  | tooLong (digits : Nat)
deriving DecidableEq, Repr

/-- Whether a character is white space of ASCII. -/
def isAsciiSpace (c : Char) : Bool := c = ' ' || ('\t' ≤ c && c ≤ '\r')

/-- A character of a number in ASCII: digits keep their value, and white space becomes a space. -/
def asciiForm (c : Char) : Char :=
  if c.toNat < 0x80 then c
  else if isBlank c then ' '
  -- A digit of any script is as good as the one of ASCII.
  else match digitValue? c with
    | some digit => Char.ofNat (0x30 + digit)
    | none => c

/-- A number in ASCII without the white space around it. -/
def asciiNumber (cs : List Char) : List Char :=
  (((cs.map asciiForm).dropWhile isAsciiSpace).reverse.dropWhile isAsciiSpace).reverse

/-- The letter that may follow a zero in front of a number in a base. -/
def baseLetter? (base : Nat) : Option Char :=
  [(2, 'b'), (8, 'o'), (16, 'x')].lookup base

/-- The digits of a number after the mark of its base, if it has one. -/
def withoutMark (base : Nat) (cs : List Char) : List Char :=
  match cs with
  | '0' :: letter :: digits =>
    if baseLetter? base = some letter.toLower then
      -- An underscore may come between the mark and the digits.
      match digits with
      | '_' :: digits => digits
      | _ => digits
    -- Without the letter of the base, a zero in front is a digit like any other.
    else cs
  | _ => cs

/-- Whether a character is a digit of a base. -/
def isDigitOf (base : Nat) (c : Char) : Bool :=
  match hexValue? c with
  | some digit => digit < base
  | none => false

/-- The number that digits of a base spell. -/
def valueIn (base : Nat) (digits : List Char) : Nat :=
  -- All characters are digits of the base by then, so that each has a value.
  digits.foldl (fun total c => base * total + (hexValue? c).getD 0) 0

/-- A number without its sign; only in the base ten there is a limit to its length. -/
def readDigits (base : Nat) (cs : List Char) : Except IntegerFault Nat :=
  let body := withoutMark base cs
  let run := body.takeWhile fun c => isDigitOf base c || c = '_'
  let parts := run.splitOn '_'
  -- Underscores stand one by one between digits.
  if !(parts.all fun part => !part.isEmpty) then .error .malformed
  -- The digits are counted before what stands behind them is looked at.
  else if base = 10 && digitLimit < parts.flatten.length then .error (.tooLong parts.flatten.length)
  else if run.length < body.length then .error .malformed
  else .ok (valueIn base parts.flatten)

/-- The whole number that a text spells in a base, white space around it aside. -/
def readInteger (base : Nat) (cs : List Char) : Except IntegerFault Int :=
  match asciiNumber cs with
  -- The sign stands before the mark of the base.
  | '-' :: digits => (readDigits base digits).map fun n => -(n : Int)
  | '+' :: digits => (readDigits base digits).map fun n => (n : Int)
  | digits => (readDigits base digits).map fun n => (n : Int)

end CycleSchedule.Text
