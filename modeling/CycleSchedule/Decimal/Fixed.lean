import CycleSchedule.Decimal.Shortest

/-! Decimals with a given number of places, rounded to the nearest and a half to the even neighbour.
-/

namespace CycleSchedule.Decimal

/-- A number to be written with so many places; `keepsPoint` leaves a point and zeros at its end. -/
structure Request where
  num : Nat
  den : Nat
  places : Nat
  keepsPoint : Bool

namespace Request

/-- Digits with a point before the last ones, none if there are no places. -/
def pointed (request : Request) (places digits : Nat) : List Char :=
  let text := Nat.toDigits 10 digits
  -- There is a digit in front of the point at least.
  let padded := List.replicate (places + 1 - text.length) '0' ++ text
  let whole := padded.take (padded.length - places)
  let fraction := padded.drop (padded.length - places)
  if fraction.isEmpty && !request.keepsPoint then whole else whole ++ '.' :: fraction

/-- The multiple of `10 ^ place` that is nearest to the number. -/
def onGrid (request : Request) (place : Int) : Nat :=
  -- The power of ten goes to whichever side keeps both numbers whole.
  if place ≥ 0 then Binary64.divideToEven request.num (request.den * Nat.pow 10 place.toNat)
  else Binary64.divideToEven (request.num * Nat.pow 10 (-place).toNat) request.den

/-- The number in plain notation. -/
def plain (request : Request) : List Char :=
  request.pointed request.places (request.onGrid (-request.places))

/-- The exponent of the number, once it is rounded, with the digits that stand before that exponent.
-/
def scientific (request : Request) : Int × Nat :=
  if request.num = 0 then (0, 0)
  else
    let exponent := pointPosition request.num request.den - 1
    let digits := request.onGrid (exponent - request.places)
    -- Rounding up may give a digit too many, which is then a zero.
    if digits = Nat.pow 10 (request.places + 1) then (exponent + 1, digits / 10)
    else (exponent, digits)

/-- An exponent of ten, of two digits at least. -/
def exponentText (exponent : Int) : List Char :=
  let digits := Nat.toDigits 10 exponent.natAbs
  -- The sign of an exponent is always written.
  'e' :: (if exponent < 0 then '-' else '+') :: (List.replicate (2 - digits.length) '0' ++ digits)

/-- The number with an exponent. -/
def exponential (request : Request) : List Char :=
  let (exponent, digits) := request.scientific
  request.pointed request.places digits ++ exponentText exponent

/-- A decimal without the zeros at its end, and without a point before nothing. -/
def trimmed (cs : List Char) : List Char :=
  if cs.contains '.' then
    -- The zeros are dropped from the end on, and the point after them if it is then the last.
    let kept := cs.reverse.dropWhile (· = '0')
    (if kept.head? = some '.' then kept.drop 1 else kept).reverse
  else cs

/-- The number in as many digits as places are asked for, plain unless its exponent is below minus
four or has no room among them. -/
def general (request : Request) : List Char :=
  -- The first digit is one of those that are asked for, so there is always one.
  let significant := max request.places 1
  let request := { request with places := significant - 1 }
  let (exponent, digits) := request.scientific
  let trim (cs : List Char) := if request.keepsPoint then cs else trimmed cs
  -- Numbers that are neither small nor large are written without an exponent.
  if -4 ≤ exponent && exponent < significant then
    trim { request with places := (significant - 1 - exponent).toNat }.plain
  else trim (request.pointed request.places digits) ++ exponentText exponent

end Request

end CycleSchedule.Decimal
