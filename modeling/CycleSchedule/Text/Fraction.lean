import CycleSchedule.Text.Blank
import CycleSchedule.Text.Digit

/-! Fractions as texts: a quotient of whole numbers, or a decimal with or without an exponent. -/

namespace CycleSchedule.Text

/-- Why a text spells no fraction. -/
inductive FractionFault where
  | malformed
  | tooLong (digits : Nat)
  | zeroDenominator
deriving DecidableEq, Repr

/-- The digits of a run in which single underscores may stand between digits. -/
def groupedDigits? (run : List Char) : Option (List Char) :=
  let parts := run.splitOn '_'
  -- An underscore at an end, or two side by side, leave an empty part.
  if parts.all fun part => !part.isEmpty && part.all isDigit then some parts.flatten else none

/-- Whether a character can be part of grouped digits. -/
def isGrouping (c : Char) : Bool := isDigit c || c = '_'

/-- Grouped digits, or none at all, at the head of a text, and what follows them. -/
def leadingDigits? (cs : List Char) : Option (List Char × List Char) :=
  let run := cs.takeWhile isGrouping
  -- A number may begin with a point, so that there may be no digits here.
  if run.isEmpty then some ([], cs)
  else (groupedDigits? run).map fun digits => (digits, cs.dropWhile isGrouping)

/-- A sign, if there is one, as the number one with that sign, and what follows it. -/
def leadingSign (cs : List Char) : Int × List Char :=
  match cs with
  | '-' :: rest => (-1, rest)
  | '+' :: rest => (1, rest)
  | _ => (1, cs)

/-- The parts of a fraction, the exponent with its sign. -/
structure FractionParts where
  numerator : List Char
  denominator : List Char
  decimals : List Char
  exponent : Int × List Char

/-- An exponent of ten up to the end of a text; none at all counts as one without digits. -/
def exponentPart? : List Char → Option (Int × List Char)
  | [] => some (1, [])
  | e :: rest =>
    -- The mark of an exponent has digits behind it, after a sign or without one.
    if e = 'e' || e = 'E' then
      let (sign, run) := leadingSign rest
      (groupedDigits? run).map (sign, ·)
    else none

/-- The parts of a fraction without its sign. -/
def fractionParts? (cs : List Char) : Option FractionParts := do
  let (numerator, rest) ← leadingDigits? cs
  match rest with
  | '/' :: run =>
    -- A quotient needs digits on both sides.
    if numerator.isEmpty then none
    else
      let denominator ← groupedDigits? run
      return ⟨numerator, denominator, [], (1, [])⟩
  | '.' :: rest =>
    let (decimals, rest) ← leadingDigits? rest
    -- A point alone is no number.
    if numerator.isEmpty && decimals.isEmpty then none
    else
      let exponent ← exponentPart? rest
      return ⟨numerator, [], decimals, exponent⟩
  | rest =>
    -- A whole number may have an exponent too.
    if numerator.isEmpty then none
    else
      let exponent ← exponentPart? rest
      return ⟨numerator, [], [], exponent⟩

/-- The number that digits spell, of which there must not be too many. -/
def limitedValue (digits : List Char) : Except FractionFault Nat :=
  -- The limit is on each run of digits by itself.
  if digitLimit < digits.length then .error (.tooLong digits.length) else .ok (digitsValue digits)

/-- The value of a fraction in parts, without its sign. -/
def FractionParts.value (parts : FractionParts) : Except FractionFault Rat := do
  let numerator ← limitedValue parts.numerator
  -- A fraction has either a denominator or decimals.
  if !parts.denominator.isEmpty then
    let denominator ← limitedValue parts.denominator
    if denominator = 0 then throw .zeroDenominator
    return mkRat numerator denominator
  let decimals ← limitedValue parts.decimals
  let (sign, digits) := parts.exponent
  let exponent ← limitedValue digits
  let unit := Nat.pow 10 parts.decimals.length
  -- The point is moved to the right first, and the exponent moves it back or further.
  let significand := numerator * unit + decimals
  let power := Nat.pow 10 exponent
  -- A negative exponent goes into the denominator.
  return if sign < 0 then mkRat significand (unit * power) else mkRat (significand * power) unit

/-- The fraction that a text spells, white space around it aside. -/
def readFraction (s : String) : Except FractionFault Rat := do
  -- The sign is read before the digits, and nothing may stand between them.
  let (sign, body) := leadingSign (trimBlank s.toList)
  match fractionParts? body with
  | none => throw .malformed
  | some parts =>
    let value ← parts.value
    return sign * value

end CycleSchedule.Text
