import CycleSchedule.Yaml.Timestamp

/-! What the form of a plain scalar says that it is. -/

namespace CycleSchedule.Yaml

/-- What a scalar can be: a value of some sort, or a word with a meaning for mappings or for marks.
-/
inductive Kind where
  | null
  | bool
  | int
  | float
  | binary
  | timestamp
  | text
  | merge
  | value
  | mark
deriving DecidableEq, Repr

/-- The words for nothing. -/
def nullWords : List String := ["", "~", "null", "Null", "NULL"]

/-- The words for true and for false, in lower case. -/
def truthWords : List (String × Bool) :=
  [("yes", true), ("no", false), ("true", true), ("false", false), ("on", true), ("off", false)]

/-- A word with its first letter as a capital. -/
def capitalized (word : String) : String :=
  match word.toList with
  | [] => word
  | c :: rest => String.ofList (c.toUpper :: rest)

/-- Whether a text is a word for true or false, in small letters, in capitals or with one of them.
-/
def isTruthWord (text : String) : Bool :=
  truthWords.any fun (word, _) => text = word || text = capitalized word || text = word.toUpper

/-- Whether a character is a digit or an underscore. -/
def isGrouped (c : Char) : Bool := Text.isAsciiDigit c || c = '_'

/-- Whether a text is a digit and then digits and underscores. -/
def isGroup : List Char → Bool
  | [] => false
  -- A group does not begin with an underscore.
  | c :: rest => Text.isAsciiDigit c && rest.all isGrouped

/-- What follows a sign, if there is one. -/
def unsigned (cs : List Char) : List Char :=
  match cs with
  | '-' :: rest => rest
  | '+' :: rest => rest
  | _ => cs

/-- Whether a text has one digit or two of a number below sixty. -/
def isSixtieth : List Char → Bool
  | [a] => Text.isAsciiDigit a
  | [a, b] => '0' ≤ a && a ≤ '5' && Text.isAsciiDigit b
  | _ => false

/-- Whether a text is a number in base sixty, of two parts at least. -/
def isSexagesimal (cs : List Char) : Bool :=
  match cs.splitOn ':' with
  -- All parts but the first are below sixty.
  | first :: second :: rest => isGroup first && (second :: rest).all isSixtieth
  | _ => false

/-- Whether a text has digits of a base and underscores, one of them at least. -/
def isRunOf (isDigit : Char → Bool) (cs : List Char) : Bool :=
  !cs.isEmpty && cs.all fun c => isDigit c || c = '_'

/-- Whether a text has the form of a whole number without its sign: binary, hexadecimal, octal,
decimal or in base sixty. -/
def isUnsignedInt (cs : List Char) : Bool :=
  match cs with
  | ['0'] => true
  -- The letter that tells the base is a small one.
  | '0' :: 'b' :: rest => isRunOf (fun c => c = '0' || c = '1') rest
  | '0' :: 'x' :: rest => isRunOf (fun c => (Text.hexValue? c).isSome) rest
  | '0' :: rest => isRunOf (fun c => '0' ≤ c && c ≤ '7') rest
  -- A number in base sixty is decimal in all of its parts.
  | _ => isGroup cs || isSexagesimal cs

/-- Whether a text is an exponent with a sign, or nothing at all. -/
def isExponent : List Char → Bool
  | [] => true
  -- The sign of an exponent must not be left out.
  | e :: sign :: digits =>
    (e = 'e' || e = 'E') && (sign = '-' || sign = '+') && !digits.isEmpty &&
      digits.all Text.isAsciiDigit
  | _ => false

/-- Whether a text has the form of a number with a point and without a sign. -/
def isUnsignedFloat (cs : List Char) : Bool :=
  let whole := cs.takeWhile (· ≠ '.')
  match cs.dropWhile (· ≠ '.') with
  -- Without a point there is no fraction, and no exponent counts.
  | [] => false
  | _ :: rest =>
    (isGroup whole && isExponent (rest.dropWhile isGrouped)) ||
      (isSexagesimal whole && rest.all isGrouped)

/-- Whether a text has the form of a number that begins with its point. -/
def isPointFloat : List Char → Bool
  | '.' :: rest =>
    isGroup (rest.takeWhile isGrouped) && isExponent (rest.dropWhile isGrouped)
  | _ => false

/-- The words for infinity, after a sign. -/
def infinityWords : List String := [".inf", ".Inf", ".INF"]

/-- The words for what is no number. -/
def nanWords : List String := [".nan", ".NaN", ".NAN"]

/-- Whether a text has the form of a binary floating-point number. -/
def isFloat (cs : List Char) : Bool :=
  -- A number that begins with its point has no sign in front of it.
  isUnsignedFloat (unsigned cs) || isPointFloat cs ||
    infinityWords.contains (String.ofList (unsigned cs)) || nanWords.contains (String.ofList cs)

/-- Whether a text has the form of a date; without a time, month and day need two digits. -/
def isDate (cs : List Char) : Bool :=
  match timestamp? cs with
  | none => false
  -- A date with a time may be written with single digits.
  | some timestamp => timestamp.time.isSome || timestamp.isPadded

/-- The words with a meaning for mappings, and the marks that no plain scalar is. -/
def specialWords : List (String × Kind) :=
  [("<<", .merge), ("=", .value), ("!", .mark), ("&", .mark), ("*", .mark)]

/-- A text without a line break at its end. -/
def withoutFinalBreak (text : String) : String :=
  match text.toList.reverse with
  -- Only one line break is dropped.
  | '\n' :: rest => String.ofList rest.reverse
  | _ => text

/-- What the form of a text without a line break at its end says that it is. -/
def formOf (word : String) : Kind :=
  let cs := word.toList
  -- The forms overlap, so the order in which they are tried counts.
  if nullWords.contains word then .null
  else if isTruthWord word then .bool
  else if isFloat cs then .float
  else if isUnsignedInt (unsigned cs) then .int
  else if isDate cs then .timestamp
  else (specialWords.lookup word).getD .text

/-- What the form of a text says that it is; a line break at its end does not count. -/
def kindOf (text : String) : Kind :=
  let word := withoutFinalBreak text
  -- Nothing but a line break is a text.
  if word.isEmpty && !text.isEmpty then .text else formOf word

end CycleSchedule.Yaml
