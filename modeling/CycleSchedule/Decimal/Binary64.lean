/-! Binary floating-point numbers of 64 bits, held exactly as a sign, a significand and an exponent.
-/

namespace CycleSchedule

/-- A 64-bit binary number: plus or minus `significand * 2 ^ exponent`, an infinity, or no number.
-/
inductive Binary64 where
  | finite (negative : Bool) (significand : Nat) (exponent : Int)
  | infinite (negative : Bool)
  | nan
deriving DecidableEq, Repr

namespace Binary64

/-- The exponent of the last place of the smallest numbers. -/
def leastExponent : Int := -1074

/-- The exponent of the last place of the largest numbers. -/
def greatestExponent : Int := 971

/-- The first significand that no longer fits in 53 bits. -/
def significandBound : Nat := Nat.pow 2 53

/-- Zero of either sign. -/
def zero (negative : Bool) : Binary64 := .finite negative 0 leastExponent

/-- The quotient rounded to the nearest whole number, a half to the even one. -/
def divideToEven (num den : Nat) : Nat :=
  let quotient := num / den
  let twice := 2 * (num % den)
  -- A half goes to the even neighbour.
  if twice > den || (twice = den && quotient % 2 = 1) then quotient + 1 else quotient

/-- The quotient of `num / den` by `2 ^ exponent`, rounded to a whole number. -/
def scaled (num den : Nat) (exponent : Int) : Nat :=
  -- The power of two goes to whichever side keeps both numbers whole.
  if exponent ≥ 0 then divideToEven num (den * Nat.pow 2 exponent.toNat)
  else divideToEven (num * Nat.pow 2 (-exponent).toNat) den

/-- The exponent at which the floor of the scaled quotient has at most 53 bits, and, above the least
exponent, exactly 53. -/
def lastPlace (num den : Nat) : Int :=
  let guess := max leastExponent ((num.log2 : Int) - den.log2 - 53)
  -- The guess is one too small at most.
  let fits :=
    if guess ≥ 0 then num / (den * Nat.pow 2 guess.toNat) < significandBound
    else num * Nat.pow 2 (-guess).toNat / den < significandBound
  if fits then guess else guess + 1

/-- The binary number nearest to the quotient of two whole numbers, a tie going to the even
significand. -/
def ofRatio (negative : Bool) (num den : Nat) : Binary64 :=
  if num = 0 || den = 0 then zero negative
  else
    let exponent := lastPlace num den
    let significand := scaled num den exponent
    -- Rounding up may give one bit too many, which is then a zero.
    let (significand, exponent) :=
      if significand = significandBound then (Nat.pow 2 52, exponent + 1)
      else (significand, exponent)
    if exponent > greatestExponent then .infinite negative
    else .finite negative significand exponent

/-- The binary number nearest to `digits * 10 ^ exponent`; far exponents need no exact power. -/
def ofDecimal (negative : Bool) (digits : Nat) (exponent : Int) : Binary64 :=
  -- Zero has no magnitude that could be looked at.
  if digits = 0 then zero negative
  else
    -- Beyond these magnitudes every number rounds to an infinity or to zero.
    let magnitude := ((Nat.toDigits 10 digits).length : Int) + exponent
    if magnitude > 310 then .infinite negative
    else if magnitude < -330 then zero negative
    else if exponent ≥ 0 then ofRatio negative (digits * Nat.pow 10 exponent.toNat) 1
    else ofRatio negative digits (Nat.pow 10 (-exponent).toNat)

/-- The whole number a binary number is equal to, if there is one. -/
def toInt? : Binary64 → Option Int
  | .finite negative significand exponent =>
    let signed (n : Nat) : Int := if negative then -n else n
    if exponent ≥ 0 then some (signed (significand * Nat.pow 2 exponent.toNat))
    else
      -- With a negative exponent it is whole if no digit of the significand is lost.
      let unit := Nat.pow 2 (-exponent).toNat
      if significand % unit = 0 then some (signed (significand / unit)) else none
  | _ => none

/-- Whether a binary number is zero of either sign. -/
def isZero : Binary64 → Bool
  | .finite _ significand _ => significand = 0
  | _ => false

/-- The binary number nearest to a whole number; one beyond the finite range counts as infinite. -/
def ofInt (n : Int) : Binary64 := ofRatio (n < 0) n.natAbs 1

/-- The binary number nearest to `significand * 2 ^ exponent`. -/
def ofScaled (negative : Bool) (significand : Nat) (exponent : Int) : Binary64 :=
  if exponent ≥ 0 then ofRatio negative (significand * Nat.pow 2 exponent.toNat) 1
  else ofRatio negative significand (Nat.pow 2 (-exponent).toNat)

/-- The number of the other sign. -/
def negate : Binary64 → Binary64
  | .finite negative significand exponent => .finite (!negative) significand exponent
  | .infinite negative => .infinite (!negative)
  | .nan => .nan

/-- The sum, rounded once. -/
def add : Binary64 → Binary64 → Binary64
  | .nan, _ => .nan
  | _, .nan => .nan
  -- Infinities of both signs have no sum.
  | .infinite a, .infinite b => if a = b then .infinite a else .nan
  | .infinite a, _ => .infinite a
  | _, .infinite b => .infinite b
  | .finite a m e, .finite b n f =>
    -- Both numbers are multiples of the smaller unit, so their sum is exact before the rounding.
    let unit := min e f
    let scaled (negative : Bool) (significand : Nat) (exponent : Int) : Int :=
      let magnitude : Int := significand * Nat.pow 2 (exponent - unit).toNat
      if negative then -magnitude else magnitude
    let total := scaled a m e + scaled b n f
    if total = 0 then zero (a && b) else ofScaled (total < 0) total.natAbs unit

/-- The product, rounded once. -/
def multiply : Binary64 → Binary64 → Binary64
  | .nan, _ => .nan
  | _, .nan => .nan
  | .infinite a, .infinite b => .infinite (a != b)
  -- Zero times an infinity is nothing.
  | .infinite a, .finite b n _ => if n = 0 then .nan else .infinite (a != b)
  | .finite a m _, .infinite b => if m = 0 then .nan else .infinite (a != b)
  -- The product is exact before the rounding.
  | .finite a m e, .finite b n f => ofScaled (a != b) (m * n) (e + f)

/-- The exact value of a finite number. -/
def toRat? : Binary64 → Option Rat
  | .finite negative significand exponent =>
    let signed : Int := if negative then -significand else significand
    -- A negative exponent is a denominator.
    if exponent ≥ 0 then some (signed * Nat.pow 2 exponent.toNat : Int)
    else some (mkRat signed (Nat.pow 2 (-exponent).toNat))
  | _ => none

/-- The whole number that is left of a finite number without its fraction. -/
def truncate? (x : Binary64) : Option Int := x.toRat?.map fun q => q.num.tdiv q.den

end Binary64

end CycleSchedule
