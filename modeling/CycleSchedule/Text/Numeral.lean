import CycleSchedule.Text.CodeRange
import CycleSchedule.Text.Digit

/-! Whole numbers as they may be spelled where a number is expected. -/

namespace CycleSchedule.Text

/-- Why a text spells no whole number. -/
inductive NumeralFault where
  | malformed
  | tooLong
deriving DecidableEq, Repr

/-- The white space that may surround a numeral. -/
def numeralSpace : List CodeRange :=
  [(0x09, 0x0D), (0x20, 0x20), (0x85, 0x85), (0xA0, 0xA0), (0x1680, 0x1680), (0x2000, 0x200A),
    (0x2028, 0x2029), (0x202F, 0x202F), (0x205F, 0x205F), (0x3000, 0x3000)]

/-- A text without the white space that may surround a numeral. -/
def trimNumeral (cs : List Char) : List Char :=
  let isSpace := inRanges numeralSpace
  ((cs.dropWhile isSpace).reverse.dropWhile isSpace).reverse

/-- A text without the plus sign at its head. -/
def withoutPlus : List Char → List Char
  | '+' :: rest => rest
  | cs => cs

/-- What follows zeros and underscores: digits or a minus sign, or else the last of them with the
point after it; `last` is the one passed last. -/
def afterZeros? (last : Char) : List Char → Option (List Char)
  | [] => some [last]
  | c :: rest =>
    if c = '0' || c = '_' then afterZeros? c rest
    else if c = '.' then some (last :: c :: rest)
    -- A minus sign may stand behind the zeros, with digits after it.
    else if isAsciiDigit c || c = '-' then some (c :: rest)
    else none

/-- A numeral without its leading zeros, which may have a minus sign behind them. -/
def withoutZeros? : List Char → Option (List Char)
  | [] => none
  | '0' :: rest => afterZeros? '0' rest
  -- A minus sign in front of zeros leaves them in place.
  | c :: rest => if isAsciiDigit c || c = '-' then some (c :: rest) else none

/-- A numeral without a point that has nothing but zeros behind it, one at least. -/
def withoutFraction (cs : List Char) : List Char :=
  match cs.dropWhile (· ≠ '.') with
  -- The zeros behind the point are dropped with it.
  | _ :: '0' :: zeros => if zeros.all (· = '0') then cs.takeWhile (· ≠ '.') else cs
  | _ => cs

/-- A numeral without the single underscores between its characters. -/
def withoutUnderscores (cs : List Char) : List Char :=
  let parts := cs.splitOn '_'
  -- Underscores at an end or side by side stay, and spoil the numeral later.
  if parts.all (!·.isEmpty) then parts.flatten else cs

/-- A numeral in its plain form: without white space, plus sign, leading zeros, fraction and
underscores. -/
def plainNumeral? (cs : List Char) : Option (List Char) :=
  (withoutZeros? (withoutPlus (trimNumeral cs))).map fun cs =>
    withoutUnderscores (withoutFraction cs)

/-- How many characters a plain numeral may have. -/
def numeralLimit : Nat := 4300

/-- The number that a plain numeral spells: digits, of which only a lone one may be a zero in front,
after an optional minus sign. -/
def readPlainNumeral (cs : List Char) : Except NumeralFault Int :=
  let (sign, digits) : Int × List Char := match cs with
    | '-' :: digits => (-1, digits)
    | _ => (1, cs)
  let run := digits.takeWhile isAsciiDigit
  if run.head? = some '0' then
    -- A zero may stand alone, and nothing may follow it.
    if digits.length = 1 then .ok 0 else .error .malformed
  -- The length is looked at before whatever may follow the digits.
  else if numeralLimit < run.length + (cs.length - digits.length) then .error .tooLong
  else if run.isEmpty || run.length < digits.length then .error .malformed
  else .ok (sign * digitsValue digits)

/-- The whole number that a text spells. -/
def readNumeral (s : String) : Except NumeralFault Int :=
  match readPlainNumeral s.toList with
  | .ok n => .ok n
  | .error .tooLong => .error .tooLong
  -- What is not plain is brought into plain form and read once more.
  | .error .malformed => match plainNumeral? s.toList with
    | some cs => (readPlainNumeral cs).mapError fun _ => .malformed
    | none => .error .malformed

end CycleSchedule.Text
