import CycleSchedule.Text.Digit
import CycleSchedule.Text.Surrogate
import CycleSchedule.Value.Basic

/-! Reading JSON text into values, with the order of members kept. -/

namespace CycleSchedule.Json

/-- The characters after white space. -/
def skipSpace (cs : List Char) : List Char :=
  cs.dropWhile fun c => c = ' ' || c = '\n' || c = '\r' || c = '\t'

/-- The value of four hexadecimal digits, with the characters after them. -/
def fourHex? : List Char → Option (Nat × List Char)
  | a :: b :: c :: d :: rest => do
    let a ← Text.hexValue? a
    let b ← Text.hexValue? b
    let c ← Text.hexValue? c
    let d ← Text.hexValue? d
    return (((a * 16 + b) * 16 + c) * 16 + d, rest)
  | _ => none

/-- The character of a code unit, together with the low half of a surrogate pair where one follows.
-/
def decodeUnit (unit : Nat) (rest : List Char) : Char × List Char :=
  let low? : Option (Nat × List Char) := match rest with
    -- A high unit only counts together with a low one right behind it.
    | '\\' :: 'u' :: more => if 0xD800 ≤ unit && unit < 0xDC00 then fourHex? more else none
    | _ => none
  match low? with
  | some (low, more) =>
    if 0xDC00 ≤ low && low < 0xE000 then
      (Char.ofNat (0x10000 + (unit - 0xD800) * 0x400 + (low - 0xDC00)), more)
    -- A unit without its other half stands for itself.
    else (Text.charOfCode unit, rest)
  | none => (Text.charOfCode unit, rest)

/-- The text after an opening quotation mark, and what follows the closing one. -/
def string? : Nat → List Char → List Char → Option (String × List Char)
  | 0, _, _ => none
  | fuel + 1, read, cs => match cs with
    | [] => none
    | '\x22' :: rest => some (String.ofList read.reverse, rest)
    -- A unit can be the first half of a character, whose other half is read with it.
    | '\\' :: 'u' :: rest => do
      let (unit, rest) ← fourHex? rest
      let (c, rest) := decodeUnit unit rest
      string? fuel (c :: read) rest
    | '\\' :: c :: rest =>
      let plain? : Option Char := match c with
        | '\x22' => some '\x22'
        | '\\' => some '\\'
        | '/' => some '/'
        | 'b' => some '\x08'
        | 'f' => some '\x0C'
        | 'n' => some '\n'
        | 'r' => some '\r'
        | 't' => some '\t'
        | _ => none
      match plain? with
      | some c => string? fuel (c :: read) rest
      -- No other character may follow a backslash.
      | none => none
    | c :: rest => string? fuel (c :: read) rest

/-- A number: whole unless it has a fraction or an exponent. -/
def number? (cs : List Char) : Option (Value × List Char) :=
  let (negative, cs) := match cs with
    | '-' :: rest => (true, rest)
    | _ => (false, cs)
  let whole := cs.takeWhile Text.isAsciiDigit
  let rest := cs.dropWhile Text.isAsciiDigit
  -- A number begins with a digit behind its sign.
  if whole.isEmpty then none
  else
    let (fraction, rest, pointed) := match rest with
      | '.' :: more =>
        let digits := more.takeWhile Text.isAsciiDigit
        -- A point without digits is not part of the number.
        if digits.isEmpty then ([], rest, false)
        else (digits, more.dropWhile Text.isAsciiDigit, true)
      | _ => ([], rest, false)
    let exponent? : Option (Int × List Char) := match rest with
      | e :: more =>
        if e = 'e' || e = 'E' then
          let (sign, more) : Int × List Char := match more with
            | '-' :: more => (-1, more)
            | '+' :: more => (1, more)
            | _ => (1, more)
          let digits := more.takeWhile Text.isAsciiDigit
          -- A letter without digits behind it is not part of the number.
          if digits.isEmpty then none
          else some (sign * Text.digitsValue digits, more.dropWhile Text.isAsciiDigit)
        else none
      | [] => none
    -- The digits of the fraction count as whole ones, which the exponent makes up for.
    match exponent? with
    | some (exponent, rest) =>
      some (.float (.ofDecimal negative (Text.digitsValue (whole ++ fraction))
        (exponent - fraction.length)), rest)
    | none =>
      if pointed then
        some (.float (.ofDecimal negative (Text.digitsValue (whole ++ fraction))
          (-fraction.length)), rest)
      else
        -- Without a point and an exponent the number is whole, however many digits it has.
        let n : Int := Text.digitsValue whole
        some (.int (if negative then -n else n), rest)

/-- The words that stand for a value, the numbers beyond the finite ones among them. -/
def words : List (String × Value) :=
  [("null", .null), ("true", .bool true), ("false", .bool false), ("NaN", .float .nan),
    ("Infinity", .float (.infinite false)), ("-Infinity", .float (.infinite true))]

/-- A word at the head of the characters. -/
def word? (cs : List Char) : Option (Value × List Char) :=
  words.findSome? fun entry =>
    -- A word counts whatever follows it; the rest has to make sense by itself then.
    if entry.1.toList.isPrefixOf cs then some (entry.2, cs.drop entry.1.length) else none

mutual

/-- A value at the head of the characters, and what follows it. -/
def value? : Nat → List Char → Option (Value × List Char)
  | 0, _ => none
  | fuel + 1, cs => match skipSpace cs with
    | '\x7B' :: rest => match skipSpace rest with
      | '\x7D' :: rest => some (.map [], rest)
      -- Braces with something in them have a member at least.
      | _ => do
        let (entries, rest) ← members? fuel rest
        return (.ofEntries entries, rest)
    | '[' :: rest => match skipSpace rest with
      | ']' :: rest => some (.list [], rest)
      | _ => do
        let (items, rest) ← items? fuel rest
        return (.list items, rest)
    | '\x22' :: rest => do
      let (s, rest) ← string? (rest.length + 1) [] rest
      return (.text s, rest)
    -- A word is looked for before a number, since one of them begins with a sign.
    | cs => (word? cs).or (number? cs)

/-- The items of an array up to its closing bracket. -/
def items? : Nat → List Char → Option (List Value × List Char)
  | 0, _ => none
  | fuel + 1, cs => do
    let (item, rest) ← value? fuel cs
    match skipSpace rest with
    | ',' :: rest => do
      let (items, rest) ← items? fuel rest
      return (item :: items, rest)
    | ']' :: rest => return ([item], rest)
    | _ => none

/-- The members of an object up to its closing brace. -/
def members? : Nat → List Char → Option (List (Atom × Value) × List Char)
  | 0, _ => none
  | fuel + 1, cs => match skipSpace cs with
    | '\x22' :: rest => do
      let (key, rest) ← string? (rest.length + 1) [] rest
      match skipSpace rest with
      | ':' :: rest => do
        let (value, rest) ← value? fuel rest
        match skipSpace rest with
        | ',' :: rest => do
          let (entries, rest) ← members? fuel rest
          return ((.text key, value) :: entries, rest)
        | '\x7D' :: rest => return ([(.text key, value)], rest)
        | _ => none
      | _ => none
    | _ => none

end

/-- The value that a whole text spells, if it is JSON. -/
def parse? (s : String) : Option Value :=
  -- Each step down reads a character at least.
  let cs := s.toList
  match value? (cs.length + 1) cs with
  -- Nothing but white space may follow the value.
  | some (value, rest) => if (skipSpace rest).isEmpty then some value else none
  | none => none

end CycleSchedule.Json
