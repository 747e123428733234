import CycleSchedule.Decimal.Fixed
import CycleSchedule.Value.Number

/-! Messages with places that values are put into: each place says which sort of value it takes, how
it is written, and how wide it is. -/

namespace CycleSchedule

/-- A width or a precision: as it is written, or as a value tells. -/
inductive Extent where
  | given (n : Nat)
  | fromValue
deriving DecidableEq, Repr

/-- A place in a message. -/
structure Place where
  key : Option String
  flags : List Char
  width : Option Extent
  precision : Option Extent
  conversion : Char
deriving DecidableEq, Repr

namespace Place

/-- The characters that may stand at the head of a place. -/
def flagChars : List Char := ['-', '+', ' ', '#', '0']

/-- The characters for the size of a number, which say nothing here. -/
def sizeChars : List Char := ['h', 'l', 'L']

/-- A key up to the parenthesis that closes it, and what follows; `depth` counts those that are
open. -/
def key? : Nat → List Char → Option (List Char × List Char)
  | _, [] => none
  | depth, c :: rest =>
    if c = ')' && depth = 0 then some ([], rest)
    else
      -- Parentheses inside a key are part of it, as long as they come in pairs.
      let depth := if c = '(' then depth + 1 else if c = ')' then depth - 1 else depth
      (key? depth rest).map fun (key, rest) => (c :: key, rest)

/-- A width or a precision at the head of a text, if there is one, and what follows. -/
def extent (cs : List Char) : Option Extent × List Char :=
  match cs with
  | '*' :: rest => (some .fromValue, rest)
  | _ =>
    let digits := cs.takeWhile Text.isAsciiDigit
    -- Digits are written out; without any there is no width or precision.
    if digits.isEmpty then (none, cs)
    else (some (.given (Text.digitsValue digits)), cs.dropWhile Text.isAsciiDigit)

/-- The place after a percent sign, and what follows it. -/
def read? (cs : List Char) : Option (Place × List Char) := do
  -- A key comes first, before all flags.
  let (key, rest) ← match cs with
    | '(' :: rest => (key? 0 rest).map fun (key, rest) => (some (String.ofList key), rest)
    | _ => some (none, cs)
  let flags := rest.takeWhile flagChars.contains
  let (width, rest) := extent (rest.dropWhile flagChars.contains)
  let (precision, rest) := match rest with
    | '.' :: rest =>
      let (precision, rest) := extent rest
      -- A point alone is a precision of zero.
      (some (precision.getD (.given 0)), rest)
    | _ => (none, rest)
  match rest with
  | [] => none
  | c :: rest =>
    -- One letter for the size may stand in front of the conversion.
    if sizeChars.contains c then match rest with
      | [] => none
      | c :: rest => return (⟨key, flags, width, precision, c⟩, rest)
    else return (⟨key, flags, width, precision, c⟩, rest)

/-- Whether a place has a flag. -/
def has (place : Place) (flag : Char) : Bool := place.flags.contains flag

end Place

/-- The parts of a value as it is put into a place. -/
structure Filling where
  sign : List Char
  lead : List Char
  body : List Char
  isNumber : Bool

/-- A filling at the width of its place. -/
def Filling.atWidth (filling : Filling) (place : Place) (width : Nat) : List Char :=
  let length := filling.sign.length + filling.lead.length + filling.body.length
  let padding (c : Char) := List.replicate (width - length) c
  -- A filling on the left is padded with spaces, whatever else the place asks for.
  if place.has '-' then filling.sign ++ filling.lead ++ filling.body ++ padding ' '
  else if filling.isNumber && place.has '0' then
    -- Zeros come between the sign and the digits.
    filling.sign ++ filling.lead ++ padding '0' ++ filling.body
  else padding ' ' ++ filling.sign ++ filling.lead ++ filling.body

namespace Place

/-- The sign of a number as a place shows it. -/
def sign (place : Place) (negative : Bool) : List Char :=
  if negative then ['-'] else if place.has '+' then ['+'] else if place.has ' ' then [' '] else []

/-- A text cut to a precision. -/
def text (s : String) (precision : Option Nat) : Filling :=
  let cs := s.toList
  ⟨[], [], match precision with
    | some n => cs.take n
    | none => cs, false⟩

/-- A text with escapes for all that is not ASCII. -/
def asciiText (s : String) : String :=
  String.ofList (s.toList.flatMap fun c => if c.toNat < 0x80 then [c] else Text.hexEscape c)

/-- A whole number in a base, with as many digits as the precision says at least. -/
def integer (place : Place) (base : Nat) (n : Int) (precision : Option Nat) : Filling :=
  -- Hexadecimal digits come in lower case, and in upper case if the conversion does.
  let digits := Nat.toDigits base n.natAbs
  let digits := if place.conversion = 'X' then digits.map Char.toUpper else digits
  let lead := if place.has '#' && base ≠ 10 then ['0', place.conversion] else []
  ⟨place.sign (n < 0), lead, List.replicate (precision.getD 0 - digits.length) '0' ++ digits, true⟩

/-- The whole number that is left of a value, if it is a number and finite. -/
def truncated? (value : Value) : Option Int :=
  match value.number? with
  -- A binary number loses its fraction; what is not finite is not left with anything.
  | some (.binary x) => x.truncate?
  | some number => number.whole?
  | none => none

/-- How many decimal places a number has where a place does not say it. -/
def defaultPlaces : Nat := 6

/-- A binary number as a conversion writes it. -/
def binary (place : Place) (x : Binary64) (precision : Option Nat) : Filling :=
  let upper := place.conversion.isUpper
  let cased (cs : List Char) := if upper then cs.map Char.toUpper else cs
  -- What is no finite number has no digits, and no precision to be shown with.
  match x with
  | .nan => ⟨place.sign false, [], cased ['n', 'a', 'n'], true⟩
  | .infinite negative => ⟨place.sign negative, [], cased ['i', 'n', 'f'], true⟩
  | .finite negative significand exponent =>
    -- A number is the quotient of two whole ones, exactly.
    let request : Decimal.Request :=
      { num := if exponent ≥ 0 then significand * Nat.pow 2 exponent.toNat else significand
        den := if exponent ≥ 0 then 1 else Nat.pow 2 (-exponent).toNat
        places := precision.getD defaultPlaces
        keepsPoint := place.has '#' }
    let body := match place.conversion.toLower with
      | 'e' => request.exponential
      | 'f' => request.plain
      | _ => request.general
    ⟨place.sign negative, [], cased body, true⟩

/-- The character that a value stands for: one of its own, or that of a code. -/
def character? : Value → Option String
  | .text s => if s.length = 1 then some s else none
  | value => match value.toInt? with
    -- A code has to be one that there is.
    | some n =>
      if 0 ≤ n && n < 0x110000 then some (String.singleton (Text.charOfCode n.toNat)) else none
    | none => none

/-- A number as a binary one, unless it is too large for that. -/
def toBinary? (number : Number) : Option Binary64 :=
  match number, number.toBinary with
  -- A whole number that only an infinite one could stand for is not put into a place.
  | .whole _, .infinite _ => none
  | _, x => some x

/-- A value put into a place, if it is of the sort that the place takes and can be written there. -/
def filling? (place : Place) (value : Value) (precision : Option Nat) : Option Filling :=
  let c := place.conversion
  -- Texts are put in as they read, as they are quoted, or quoted with ASCII characters only.
  if c = 's' then value.display.write?.map fun s => text s precision
  else if c = 'r' then value.literal.write?.map fun s => text s precision
  else if c = 'a' then value.literal.write?.map fun s => text (asciiText s) precision
  else if c = 'd' || c = 'i' || c = 'u' then
    -- Only in the base ten there is a limit to the digits that are written.
    ((truncated? value).filter Text.isWritable).map fun n => place.integer 10 n precision
  else if c = 'o' then value.toInt?.map fun n => place.integer 8 n precision
  else if c = 'x' || c = 'X' then value.toInt?.map fun n => place.integer 16 n precision
  else if c = 'c' then (character? value).map fun s => text s none
  else if ['e', 'E', 'f', 'F', 'g', 'G'].contains c then
    (value.number?.bind toBinary?).map fun x => place.binary x precision
  else none

end Place

/-- The values that are left for the places of a message, and the mapping that keys look into. -/
structure Supply where
  values : List Value
  mapping : Option Value

namespace Supply

/-- The values for a message: all in a row, or a mapping alone, which keys look into as well. -/
def ofValues (values : List Value) : Supply :=
  match values with
  -- A mapping that is empty is not looked into.
  | [.map (entry :: entries)] => ⟨values, some (.map (entry :: entries))⟩
  | _ => ⟨values, none⟩

/-- The next value, and the values after it. -/
def next? (supply : Supply) : Option (Value × Supply) :=
  match supply.values with
  | [] => none
  | value :: values => some (value, { supply with values })

/-- The values after a key has been looked up: the one under it. -/
def under? (supply : Supply) (key : Option String) : Option Supply :=
  match key with
  | none => some supply
  | some key => do
    -- A key needs a mapping, and has to be one of its keys.
    let value ← (← supply.mapping).field? key
    return { supply with values := [value] }

/-- A width or a precision as a number, with the values after it. -/
def extent? (supply : Supply) (extent : Option Extent) : Option (Option Int × Supply) :=
  match extent with
  | none => some (none, supply)
  | some (.given n) => some (some n, supply)
  | some .fromValue => do
    -- The extent is taken from the values, ahead of the value that it is for.
    let (value, supply) ← supply.next?
    let n ← value.toInt?
    return (some n, supply)

/-- Whether nothing is left that should have been used. -/
def isSpent (supply : Supply) : Bool := supply.values.isEmpty || supply.mapping.isSome

/-- A place filled from the supply, and the supply after it. -/
def fill? (supply : Supply) (place : Place) : Option (List Char × Supply) := do
  let supply ← supply.under? place.key
  -- The width is taken first, then the precision, and the value last.
  let (width, supply) ← supply.extent? place.width
  let (precision, supply) ← supply.extent? place.precision
  let (value, supply) ← supply.next?
  let filling ← place.filling? value (precision.map Int.toNat)
  -- A negative width stands for one at which the filling is on the left.
  let place := if (width.getD 0) < 0 then { place with flags := '-' :: place.flags } else place
  return (filling.atWidth place (width.getD 0).natAbs, supply)

end Supply

/-- A text with its places filled, where two percent signs stand for one. All places have to be
filled, and what is in a row has to be used up; the fuel is the length of the text. -/
def fillPlaces : Nat → Supply → List Char → Option (List Char)
  -- Values that are left over spoil the whole message.
  | 0, supply, _ => if supply.isSpent then some [] else none
  | _ + 1, supply, [] => if supply.isSpent then some [] else none
  | fuel + 1, supply, '%' :: '%' :: rest => (fillPlaces fuel supply rest).map ('%' :: ·)
  | fuel + 1, supply, c :: rest =>
    if c = '%' then do
      let (place, rest) ← Place.read? rest
      let (filled, supply) ← supply.fill? place
      let more ← fillPlaces fuel supply rest
      return filled ++ more
    else (fillPlaces fuel supply rest).map (c :: ·)

/-- The message that a text makes of values; without values the text is taken as it is. -/
def messageText (text : String) (values : List Value) : Option String :=
  if values.isEmpty then some text
  else
    let cs := text.toList
    (fillPlaces (cs.length + 1) (.ofValues values) cs).map String.ofList

end CycleSchedule
