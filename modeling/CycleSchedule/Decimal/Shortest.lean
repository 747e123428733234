import CycleSchedule.Decimal.Binary64

/-! The shortest decimal text that reads back as a given binary number. -/

namespace CycleSchedule.Decimal

/-- The closed or open interval of quotients over a common denominator that round to one number,
with the number itself. -/
structure Rounding where
  lower : Nat
  value : Nat
  upper : Nat
  unit : Nat
  closed : Bool

/-- The quotients that round to `significand * 2 ^ exponent`; below a power of two they are closer.
-/
def Rounding.of (significand : Nat) (exponent : Int) : Rounding :=
  let scale := if exponent ≥ 2 then Nat.pow 2 (exponent - 2).toNat else 1
  -- Below a power of two the neighbours lie closer.
  let gap := if significand = Nat.pow 2 52 && exponent > Binary64.leastExponent then 1 else 2
  { lower := (4 * significand - gap) * scale
    value := 4 * significand * scale
    upper := (4 * significand + 2) * scale
    unit := if exponent ≥ 2 then 1 else Nat.pow 2 (2 - exponent).toNat
    closed := significand % 2 = 0 }

/-- The number of digits before the point, negative when zeros follow the point. -/
def pointPosition (num den : Nat) : Int :=
  -- Below one, the digits of the inverse tell how many zeros follow the point.
  if num ≥ den then (Nat.toDigits 10 (num / den)).length
  else 1 - ((Nat.toDigits 10 ((den - 1) / num)).length : Int)

/-- Whether `digits * 10 ^ place` lies in the interval. -/
def Rounding.holds (r : Rounding) (digits : Nat) (place : Int) : Bool :=
  let num := if place ≥ 0 then digits * Nat.pow 10 place.toNat * r.unit else digits * r.unit
  let den := if place ≥ 0 then 1 else Nat.pow 10 (-place).toNat
  -- The ends of the interval belong to it where the significand is even.
  if r.closed then r.lower * den ≤ num && num ≤ r.upper * den
  else r.lower * den < num && num < r.upper * den

/-- The multiple of `10 ^ place` in the interval that is nearest to its value, if there is one. -/
def Rounding.onGrid? (r : Rounding) (place : Int) : Option Nat :=
  let num := if place ≥ 0 then r.value else r.value * Nat.pow 10 (-place).toNat
  let den := if place ≥ 0 then r.unit * Nat.pow 10 place.toNat else r.unit
  let below := num / den
  let nearest := Binary64.divideToEven num den
  let other := if nearest = below then below + 1 else below
  -- The nearest number on the grid comes first, then the one on the other side.
  if r.holds nearest place then some nearest
  else if r.holds other place then some other
  else none

/-- The digits of the shortest decimal, with the position of the point before which they stand. -/
def shortest (significand : Nat) (exponent : Int) : List Char × Int :=
  let r := Rounding.of significand exponent
  let point := pointPosition r.value r.unit
  -- Seventeen digits tell any two binary numbers apart, so one of these grids has a point inside.
  let grids := (List.range 17).map fun n => point - (n + 1 : Nat)
  -- The coarsest grid comes first, so that the digits are as few as they can be.
  let found := grids.findSome? fun place => (r.onGrid? place).map fun digits => (digits, place)
  let (digits, place) := found.getD (0, 0)
  let text := Nat.toDigits 10 digits
  -- Zeros at the end of the digits only move the point.
  ((text.reverse.dropWhile (· = '0')).reverse, place + text.length)

/-- How a decimal is laid out: where plain notation ends and how an exponent is written. -/
structure Layout where
  leastPoint : Int
  greatestPoint : Int
  exponentDigits : Nat
  infinity : String
  notANumber : String

/-- Digits with the point at the given position, zeros filling the gap. -/
def plain (digits : List Char) (point : Int) : List Char :=
  -- A number below one has a zero in front of its point.
  if point ≤ 0 then '0' :: '.' :: (List.replicate (-point).toNat '0' ++ digits)
  -- A whole number has a point and a zero behind it.
  else if digits.length ≤ point.toNat then
    digits ++ List.replicate (point.toNat - digits.length) '0' ++ ['.', '0']
  else digits.take point.toNat ++ '.' :: digits.drop point.toNat

/-- Digits with a point after the first and a signed exponent of ten. -/
def scientific (layout : Layout) (digits : List Char) (point : Int) : List Char :=
  let exponent := point - 1
  let text := Nat.toDigits 10 exponent.natAbs
  -- A single digit has no point behind it.
  let fraction := if digits.length ≤ 1 then [] else '.' :: digits.drop 1
  digits.take 1 ++ fraction ++ ['e', if exponent < 0 then '-' else '+'] ++
    List.replicate (layout.exponentDigits - text.length) '0' ++ text

/-- The text of a binary number in a layout. -/
def render (layout : Layout) : Binary64 → String
  | .nan => layout.notANumber
  | .infinite negative => (if negative then "-" else "") ++ layout.infinity
  | .finite negative significand exponent =>
    -- Zero has one digit, whatever its exponent.
    let (digits, point) := if significand = 0 then (['0'], 1) else shortest significand exponent
    let body :=
      if layout.leastPoint ≤ point && point ≤ layout.greatestPoint then plain digits point
      else scientific layout digits point
    (if negative then "-" else "") ++ String.ofList body

end CycleSchedule.Decimal
