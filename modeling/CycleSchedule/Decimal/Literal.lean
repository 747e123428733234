import CycleSchedule.Decimal.Binary64
import CycleSchedule.Text.Integer

/-! Binary numbers as texts: decimals with or without an exponent, and the words for all others. -/

namespace CycleSchedule.Decimal

/-- The words for numbers that are not finite, in lower case. -/
def words : List (String × Binary64) :=
  [("inf", .infinite false), ("infinity", .infinite false), ("nan", .nan)]

/-- An exponent of ten up to the end of a text; none at all is zero. -/
def exponent? : List Char → Option Int
  -- A number without an exponent ends where its digits do.
  | [] => some 0
  | e :: rest =>
    let (sign, digits) : Int × List Char := match rest with
      | '-' :: digits => (-1, digits)
      | '+' :: digits => (1, digits)
      | digits => (1, digits)
    if (e = 'e' || e = 'E') && !digits.isEmpty && digits.all Text.isAsciiDigit then
      some (sign * Text.digitsValue digits)
    else none

/-- A decimal without its sign, with a digit before or after its point if it has one. -/
def decimal? (cs : List Char) : Option Binary64 :=
  let whole := cs.takeWhile Text.isAsciiDigit
  let rest := cs.dropWhile Text.isAsciiDigit
  let (fraction, rest) := match rest with
    | '.' :: more => (more.takeWhile Text.isAsciiDigit, more.dropWhile Text.isAsciiDigit)
    | _ => ([], rest)
  -- There has to be a digit on one side of the point at least.
  if whole.isEmpty && fraction.isEmpty then none
  else (exponent? rest).map fun exponent =>
    -- The digits after the point count as whole ones, which the exponent makes up for.
    .ofDecimal false (Text.digitsValue (whole ++ fraction)) (exponent - fraction.length)

/-- A number without its sign. -/
def unsigned? (cs : List Char) : Option Binary64 :=
  -- A word is looked for first, in any case of its letters.
  (words.lookup (String.ofList (cs.map Char.toLower))).or (decimal? cs)

/-- The binary number nearest to what a text spells, white space around it aside. -/
def readBinary? (cs : List Char) : Option Binary64 :=
  match Text.asciiNumber cs with
  -- A sign belongs to words as well as to digits.
  | '-' :: rest => (unsigned? rest).map Binary64.negate
  | '+' :: rest => unsigned? rest
  | rest => unsigned? rest

end CycleSchedule.Decimal
