import CycleSchedule.Text.Fraction
import CycleSchedule.Value.Number

/-! What a latency, a limit or a distance has to offer: a text at any time, and a number at the time
when one is needed. -/

namespace CycleSchedule

/-- Why a quantity cannot be calculated with. -/
inductive QuantityFault where
  | notANumber
  | badFraction (text : String)
  | tooManyDigits (count : Nat)
  | zeroDenominator
  | undefined
  | infinite
deriving DecidableEq, Repr

/-- How a fault of a quantity reads. -/
def QuantityFault.message : QuantityFault → String
  | notANumber => "a number was expected"
  | badFraction text => "Invalid literal for Fraction: " ++ Text.quote text
  | tooManyDigits count => Text.digitLimitMessage count
  | zeroDenominator => "a denominator is zero"
  | undefined => "cannot convert NaN to integer ratio"
  | infinite => "cannot convert Infinity to integer ratio"

/-- Numbers that schedules are calculated with. -/
class Measure (κ : Type) extends Add κ, Sub κ, Mul κ, LT κ, LE κ where
  decidableLT : DecidableLT κ
  decidableLE : DecidableLE κ
  /-- The measure that a whole number is. -/
  ofInt : Int → κ
  /-- The whole number that it is, if it is of a whole kind. -/
  whole? : κ → Option Int
  /-- The greatest whole number that is not above its half. -/
  half : κ → κ
  /-- More halvings than a range from one up to it allows. -/
  halvings : κ → Nat
  /-- Its exact value. -/
  ratio : κ → Except QuantityFault Rat
  /-- The number that it is. -/
  number : κ → Number

instance Measure.instDecidableLT {κ : Type} [Measure κ] : DecidableLT κ :=
  Measure.decidableLT

instance Measure.instDecidableLE {κ : Type} [Measure κ] : DecidableLE κ :=
  Measure.decidableLE

instance : Measure Int where
  decidableLT := inferInstance
  decidableLE := inferInstance
  -- Whole numbers are their own measures, in every respect.
  ofInt n := n
  whole? n := some n
  -- The half is rounded down, below zero too.
  half n := n / 2
  halvings n := n.toNat
  ratio n := .ok n
  number := .whole

/-- The exact value of a number, which has to be finite. -/
def Number.ratio : Number → Except QuantityFault Rat
  -- What is not finite has no exact value.
  | .binary .nan => .error .undefined
  | .binary (.infinite _) => .error .infinite
  | .binary x => .ok (x.toRat?.getD 0)
  | number => .ok (number.whole?.getD 0)

instance : Measure Number where
  decidableLT := inferInstance
  decidableLE := inferInstance
  ofInt := .whole
  whole? := Number.whole?
  half := Number.half
  halvings := Number.halvings
  ratio := Number.ratio
  number n := n

/-- The greater of two measures; the first one stays unless the second is greater. -/
def Measure.later {κ : Type} [Measure κ] (a b : κ) : κ := if a < b then b else a

/-- What registrations hold, with the measures that it may turn out to be. -/
class Quantity (ν : Type) (κ : outParam Type) where
  /-- Whether it is equal to zero. -/
  isZero : ν → Bool
  /-- Whether a dependence is written without it. -/
  isVoid : ν → Bool
  /-- How it reads in running text. -/
  text : ν → Phrase
  /-- The measure that it is, if it is one. -/
  measure? : ν → Option κ
  /-- Its exact value, which some texts have too. -/
  ratio : ν → Except QuantityFault Rat

instance : Quantity Int Int where
  isZero n := n = 0
  isVoid n := n = 0
  text n := .number n
  measure? n := some n
  ratio n := .ok n

/-- The exact value of a number or of the text of a fraction. -/
def Value.ratio (value : Value) : Except QuantityFault Rat :=
  match value, value.number? with
  -- A number is taken as it is, before any text is looked at.
  | _, some number => number.ratio
  -- A text may spell a fraction, which then has an exact value.
  | .text s, none => (Text.readFraction s).mapError fun
    | .malformed => .badFraction s
    | .tooLong count => .tooManyDigits count
    | .zeroDenominator => .zeroDenominator
  -- Neither a number nor a text has a value.
  | _, none => .error .notANumber

instance : Quantity Value Number where
  -- Junk may stand where a number should, so there may be no measure.
  isZero := Value.isZero
  isVoid := Value.isVoid
  text := Value.display
  measure? := Value.number?
  ratio := Value.ratio

instance : Quantity Number Number where
  isZero number := number.value.isZero
  isVoid number := number.value.isVoid
  text := Number.text
  measure? number := some number
  ratio := Number.ratio

end CycleSchedule
