import CycleSchedule.Yaml.Scalar

/-! The words of a document: marks for its structure, names, and scalars. -/

namespace CycleSchedule.Yaml

/-- A tag as it is written: a handle, unless the tag is written out in full, and a suffix. -/
structure WrittenTag where
  handle : Option String
  suffix : String
deriving DecidableEq, Repr

/-- An instruction before a document. -/
inductive Directive where
  | version (major : Nat)
  | tag (handle start : String)
  | other
deriving DecidableEq, Repr

/-- A word of a document, or why there is none. -/
inductive Token where
  | directive (directive : Directive)
  | documentStart
  | documentEnd
  | blockSequence
  | blockMapping
  | blockEnd
  | blockEntry
  | key
  | value
  | openBracket
  | closeBracket
  | openBrace
  | closeBrace
  | comma
  | alias (name : String)
  | anchor (name : String)
  | tag (tag : WrittenTag)
  | scalar (plain : Bool) (text : String)
  | unreadable (fault : Fault)
deriving DecidableEq, Repr

/-- Whether a character may occur in the name of an anchor. -/
def isNameChar (c : Char) : Bool := c.isAlphanum || c = '-' || c = '_'

/-- What may come right after the name of an anchor, besides a gap. -/
def nameEnds : List Char := ['?', ':', ',', ']', '\x7D', '%', '@', '\x60']

/-- The name of an anchor or an alias, and what follows it. -/
def name? (spots : List Spot) : Option (String × List Spot) :=
  -- The name ends where its characters do, and only some signs may follow it.
  let name := chars (spots.takeWhile fun spot => isNameChar spot.char)
  let after := spots.dropWhile fun spot => isNameChar spot.char
  if name.isEmpty then none
  else if atGap after || nameEnds.any fun c => startsWith c after then
    some (String.ofList name, after)
  else none

/-- The characters of a tag besides letters and digits. -/
def tagChars : List Char :=
  ['-', ';', '/', '?', ':', '@', '&', '=', '+', '$', ',', '_', '.', '!', '~', '*', '\x27', '(', ')',
    '[', ']', '%']

/-- Whether a character may occur in a tag. -/
def isTagChar (c : Char) : Bool := c.isAlphanum || tagChars.contains c

/-- The bytes of a run of characters of a tag, of which a percent sign and two digits make one. -/
def tagBytes? : List Char → Option (List UInt8)
  | [] => some []
  | '%' :: a :: b :: rest => do
    -- Two hexadecimal digits make a byte, and bytes make characters only together.
    let high ← Text.hexValue? a
    let low ← Text.hexValue? b
    let bytes ← tagBytes? rest
    return UInt8.ofNat (16 * high + low) :: bytes
  -- A percent sign without two digits is a mistake.
  | c :: rest => if c = '%' then none else (tagBytes? rest).map (UInt8.ofNat c.toNat :: ·)

/-- A run of characters of a tag, and what follows it. -/
def tagText? (spots : List Spot) : Option (String × List Spot) := do
  let written := chars (spots.takeWhile fun spot => isTagChar spot.char)
  -- The bytes of a tag have to be those of a text.
  let text ← Atom.bytesText? (← tagBytes? written)
  if text.isEmpty then none
  else some (text, spots.dropWhile fun spot => isTagChar spot.char)

/-- The handle of a tag: an exclamation mark alone, or two of them around a name. -/
def tagHandle? (spots : List Spot) : Option (String × List Spot) :=
  if !startsWith '!' spots then none
  else
    let rest := spots.drop 1
    let name := chars (rest.takeWhile fun spot => isNameChar spot.char)
    let after := rest.dropWhile fun spot => isNameChar spot.char
    -- A second mark closes a handle that has a name.
    if startsWith '!' after then some (String.ofList ('!' :: name ++ ['!']), after.drop 1)
    else if name.isEmpty then some ("!", rest)
    else none

/-- Whether a tag that begins here has a handle with a second exclamation mark. -/
def hasLongHandle (spots : List Spot) : Bool :=
  ((spots.drop 1).takeWhile fun spot => !(spot.char = ' ' || isBreak spot.char)).any
    (·.char = '!')

/-- A tag, and what follows it. -/
def tag? (spots : List Spot) : Option (WrittenTag × List Spot) := do
  let rest := spots.drop 1
  let (tag, after) ←
    -- A tag in angle brackets is written out in full.
    if startsWith '<' rest then do
      let (suffix, after) ← tagText? (rest.drop 1)
      if startsWith '>' after then some (⟨none, suffix⟩, after.drop 1) else none
    -- A mark alone is a tag of its own.
    else if atGap rest then some (⟨none, "!"⟩, rest)
    else if hasLongHandle spots then do
      let (handle, after) ← tagHandle? spots
      let (suffix, after) ← tagText? after
      some (⟨some handle, suffix⟩, after)
    else do
      -- Without a second mark the first one is the handle.
      let (suffix, after) ← tagText? rest
      some (⟨some "!", suffix⟩, after)
  if atGap after && !startsWith '\t' after then some (tag, after) else none

/-- A number in a directive, and what follows it. -/
def directiveNumber? (spots : List Spot) : Option (Nat × List Spot) :=
  -- The digits of a version are those of ASCII.
  let isDigit (spot : Spot) := '0' ≤ spot.char && spot.char ≤ '9'
  let digits := chars (spots.takeWhile isDigit)
  if digits.isEmpty then none else some (Text.digitsValue digits, spots.dropWhile isDigit)

/-- A directive after its percent sign, and the lines after it. -/
def directive? (spots : List Spot) : Option (Directive × List Spot) := do
  let name := chars (spots.takeWhile fun spot => isNameChar spot.char)
  let after := spots.dropWhile fun spot => isNameChar spot.char
  if name.isEmpty || !atGap after || startsWith '\t' after then none
  let (directive, after) ←
    if String.ofList name = "YAML" then do
      let (major, after) ← directiveNumber? (skipSpaces after)
      if !startsWith '.' after then none
      -- The minor version is read, and does not matter.
      let (_, after) ← directiveNumber? (after.drop 1)
      if atGap after && !startsWith '\t' after then some (.version major, after) else none
    else if String.ofList name = "TAG" then do
      let (handle, after) ← tagHandle? (skipSpaces after)
      -- Handle and prefix are separated by spaces.
      if !startsWith ' ' after then none
      let (start, after) ← tagText? (skipSpaces after)
      if atGap after && !startsWith '\t' after then some (.tag handle start, after) else none
    -- What other directives say does not matter.
    else some (.other, skipLine after)
  let after ← lineEnd? after
  return (directive, after)

end CycleSchedule.Yaml
