import CycleSchedule.Value.Display

/-! Numbers of every kind that a value can be, and how they are calculated with. -/

namespace CycleSchedule

/-- A number: whole, a truth value, which counts as one or zero, or binary. -/
inductive Number where
  | whole (n : Int)
  | truth (b : Bool)
  | binary (x : Binary64)
deriving DecidableEq, Repr

namespace Number

/-- The value that a number is. -/
def value : Number → Value
  | .whole n => .int n
  | .truth b => .bool b
  | .binary x => .float x

/-- How a number reads. -/
def text (number : Number) : Phrase := number.value.display

/-- The whole number that a number of a whole kind counts as. -/
def whole? : Number → Option Int
  | .whole n => some n
  -- Truth values count as whole numbers in all arithmetic.
  | .truth b => some (if b then 1 else 0)
  | .binary _ => none

/-- A number as a binary one. -/
def toBinary : Number → Binary64
  | .whole n => .ofInt n
  | .truth b => .ofInt (if b then 1 else 0)
  | .binary x => x

/-- Calculates with whole numbers where both are of a whole kind, and with binary ones elsewhere. -/
def combine (whole : Int → Int → Int) (binary : Binary64 → Binary64 → Binary64)
    (a b : Number) : Number :=
  match a.whole?, b.whole? with
  | some m, some n => .whole (whole m n)
  -- One binary number makes the whole calculation binary.
  | _, _ => .binary (binary a.toBinary b.toBinary)

instance : Add Number := ⟨combine (· + ·) .add⟩

instance : Sub Number := ⟨combine (· - ·) fun a b => a.add b.negate⟩

instance : Mul Number := ⟨combine (· * ·) .multiply⟩

/-- Where a number lies: before, among or after the finite ones, and at which value among them. What
is no number lies nowhere. -/
def position? : Number → Option (Int × Rat)
  | .binary .nan => none
  -- Infinities lie outside of all finite numbers, on either side.
  | .binary (.infinite negative) => some (if negative then -1 else 1, 0)
  | .binary x => x.toRat?.map fun q => (0, q)
  | number => number.whole?.map fun n => (0, (n : Rat))

/-- Whether the first number is smaller. -/
def isLess (a b : Number) : Bool :=
  match a.position?, b.position? with
  -- Numbers are compared by their exact values, across all kinds.
  | some (i, p), some (j, q) => i < j || (i = j && p < q)
  | _, _ => false

/-- Whether the first number is not greater; no comparison holds of what is no number. -/
def isAtMost (a b : Number) : Bool :=
  match a.position?, b.position? with
  | some (i, p), some (j, q) => i < j || (i = j && p ≤ q)
  | _, _ => false

instance : LT Number := ⟨fun a b => isLess a b = true⟩

instance : LE Number := ⟨fun a b => isAtMost a b = true⟩

instance : DecidableLT Number := fun a b => inferInstanceAs (Decidable (isLess a b = true))

instance : DecidableLE Number := fun a b => inferInstanceAs (Decidable (isAtMost a b = true))

/-- Half of a number without what is left over. -/
def half : Number → Number
  | .binary x => match x.toRat? with
    | some q => .binary (.ofInt (q / 2).floor)
    -- What is not finite has no half.
    | none => .binary .nan
  | number => .whole (number.whole?.getD 0 / 2)

/-- More halvings than a range from one to a number allows; binary numbers have no more binary
places. -/
def halvings : Number → Nat
  | .binary _ => 2048
  | number => (number.whole?.getD 0).toNat

end Number

/-- The number that a value is, if it is one. -/
def Value.number? : Value → Option Number
  | .int n => some (.whole n)
  | .bool b => some (.truth b)
  | .float x => some (.binary x)
  | _ => none

end CycleSchedule
