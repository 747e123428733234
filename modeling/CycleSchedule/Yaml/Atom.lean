import CycleSchedule.Decimal.Literal
import CycleSchedule.Text.Base64
import CycleSchedule.Yaml.Fault
import CycleSchedule.Yaml.Kind

/-! The atoms that scalars stand for, given what they are said to be. -/

namespace CycleSchedule.Yaml

/-- The number that a text has to spell in a base. -/
def integerIn (base : Nat) (cs : List Char) : Except Fault Int :=
  (Text.readInteger base cs).mapError fun
    -- What is wrong is told of the text as it is written in its base.
    | .malformed => .badInteger base cs
    | .tooLong digits => .longInteger digits

/-- A number with its sign taken off, as one or minus one, and what follows the sign; something has
to be there. -/
def takeSign (cs : List Char) : Except Fault (Int × List Char) :=
  match cs with
  -- A sign may still have nothing behind it, which is found out later.
  | [] => .error .noNumber
  | '-' :: rest => .ok (-1, rest)
  | '+' :: rest => .ok (1, rest)
  | _ => .ok (1, cs)

/-- The whole number that parts in base sixty spell, the most significant one first. -/
def sixtyInteger (parts : List Int) : Int := parts.foldl (fun total part => 60 * total + part) 0

/-- The whole number that a text is said to be; underscores in it do not count. -/
def integerOf (text : String) : Except Fault Int := do
  let (sign, digits) ← takeSign (text.toList.filter (· ≠ '_'))
  let magnitude ← match digits with
    -- A lone zero is no octal number without digits.
    | ['0'] => Except.ok 0
    | '0' :: 'b' :: rest => integerIn 2 rest
    | '0' :: 'x' :: rest => integerIn 16 rest
    | '0' :: _ => integerIn 8 digits
    | [] => .error .noNumber
    | _ =>
      -- Parts between colons are digits to the base sixty.
      if digits.contains ':' then ((digits.splitOn ':').mapM (integerIn 10)).map sixtyInteger
      else integerIn 10 digits
  return sign * magnitude

/-- The binary number that a text has to spell. -/
def binaryIn (cs : List Char) : Except Fault Binary64 :=
  match Decimal.readBinary? cs with
  | some x => .ok x
  | none => .error (.badFloat cs)

/-- The binary number that parts in base sixty make, the least significant one first. Every step is
rounded. -/
def sixtyBinary (parts : List Binary64) : Binary64 :=
  (parts.foldl (fun (total, unit) part =>
    (Binary64.add total (part.multiply (.ofInt unit)), unit * 60)) (.zero false, (1 : Int))).1

/-- The binary number that a text is said to be; underscores in it do not count. -/
def floatOf (text : String) : Except Fault Binary64 := do
  -- The words for what is no finite number are told apart in lower case.
  let cs := (text.toList.filter (· ≠ '_')).map Char.toLower
  let (sign, digits) ← takeSign cs
  let magnitude ← match String.ofList digits with
    -- The sign is taken off before, so infinity has none here.
    | ".inf" => Except.ok (.infinite false)
    | ".nan" => .ok .nan
    | _ =>
      if digits.contains ':' then
        ((digits.splitOn ':').mapM binaryIn).map fun parts => sixtyBinary parts.reverse
      else binaryIn digits
  -- The sign is put back last, on infinities as on all others.
  return if sign < 0 then magnitude.negate else magnitude

/-- The day or the time that a text is said to be. -/
def timestampOf (text : String) : Except Fault Atom :=
  match timestamp? (withoutFinalBreak text).toList with
  | none => .error .badTimestamp
  -- What is read has a valid form, but there may be no such day or time.
  | some written => match written.time with
    | none => ((Date.make written.year written.month written.day).mapError .noDate).map .date
    | some time =>
      ((Moment.make written.year written.month written.day time.hour time.minute time.second
        (microseconds time.fraction) time.offset).mapError .noDate).map .moment

/-- The bytes that a text is said to be. -/
def bytesOf (text : String) : Except Fault (List UInt8) :=
  -- Characters that are not ASCII are refused before anything is decoded.
  match text.toList.all (·.toNat < 0x80), Text.bytes64? text.toList with
  | true, some data => .ok data
  | _, _ => .error .notWellFormed

/-- The atom that a text stands for, given what it is said to be. -/
def atomOf (kind : Kind) (text : String) : Except Fault Atom :=
  match kind with
  | .null => .ok .null
  | .bool => match truthWords.lookup text.toLower with
    | some b => .ok (.bool b)
    | none => .error (.badTruth text.toLower)
  | .int => (integerOf text).map .int
  | .float => (floatOf text).map .float
  | .binary => (bytesOf text).map .bytes
  | .timestamp => timestampOf text
  | .text => .ok (.text text)
  -- These kinds are not for values that stand by themselves.
  | .merge => .error .notWellFormed
  | .value => .error .notWellFormed
  | .mark => .error .notWellFormed

end CycleSchedule.Yaml
