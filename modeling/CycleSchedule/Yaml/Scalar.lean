import CycleSchedule.Yaml.Fault
import CycleSchedule.Yaml.Spot

/-! The text of scalars: plain ones, quoted ones, and blocks of lines. -/

namespace CycleSchedule.Yaml

/-- The breaks of empty lines, what follows them, and whether a document marker stopped the search.
White space of a given sort is skipped; `fresh` says that a line has just begun. -/
def emptyLines (skips : Char → Bool) : Bool → List Spot → List Char × List Spot × Bool
  | _, [] => ([], [], false)
  | fresh, spot :: rest =>
    -- A marker only counts at the start of a line.
    if fresh && atMarker (spot :: rest) then ([], spot :: rest, true)
    else if skips spot.char then emptyLines skips false rest
    -- Each line break ends an empty line, and begins another one.
    else if isBreak spot.char then
      let (breaks, after, marker) := emptyLines skips true rest
      (spot.char :: breaks, after, marker)
    else ([], spot :: rest, false)

/-- What a line break followed by empty lines stands for inside a scalar: a single one for a space,
more of them for one fewer. -/
def folded (first : Char) (breaks : List Char) : List Char :=
  -- The breaks of other scripts are never turned into spaces.
  if first ≠ '\n' then first :: breaks
  -- One line break is a space, of several the first is dropped.
  else if breaks.isEmpty then [' ']
  else breaks

/-- The characters that have an escape of their own. -/
def namedEscapes : List (Char × Char) :=
  [('0', '\x00'), ('a', '\x07'), ('b', '\x08'), ('t', '\t'), ('\t', '\t'), ('n', '\n'),
    ('v', '\x0B'), ('f', '\x0C'), ('r', '\r'), ('e', '\x1B'), (' ', ' '), ('\x22', '\x22'),
    ('\\', '\\'), ('/', '/'), ('N', '\u0085'), ('_', '\u00A0'), ('L', '\u2028'), ('P', '\u2029')]

/-- How many hexadecimal digits follow the letter of an escape. -/
def codeEscapes : List (Char × Nat) := [('x', 2), ('u', 4), ('U', 8)]

/-- The value of hexadecimal digits, all of which must be there. -/
def hexValue? (spots : List Spot) (count : Nat) : Option Nat :=
  if spots.length < count then none
  -- The most significant digit comes first.
  else (spots.take count).foldlM (fun value spot => do
    let digit ← Text.hexValue? spot.char
    return 16 * value + digit) 0

/-- What a document that is well formed has. -/
def wellFormed {α : Type} : Option α → Except Fault α
  | some a => .ok a
  | none => .error .notWellFormed

/-- The greatest code that is looked up at all. -/
def codeLimit : Nat := 0x7FFFFFFF

/-- The character of a code; halves of pairs have characters of their own. -/
def characterOf (code : Nat) : Except Fault Char :=
  -- Codes that are too large are told apart by how large they are.
  if codeLimit < code then .error .hugeCharacter
  else if 0x10FFFF < code then .error .unknownCharacter
  else .ok (Text.charOfCode code)

/-- What the escape after a backslash stands for, and what follows it. -/
def escape : List Spot → Except Fault (List Char × List Spot)
  | [] => .error .notWellFormed
  | spot :: rest =>
    if isBreak spot.char then
      let (breaks, after, marker) := emptyLines isSpace true rest
      -- A line break that is escaped joins two lines without a space.
      if marker then .error .notWellFormed else .ok (breaks, after)
    else match namedEscapes.lookup spot.char with
      | some c => .ok ([c], rest)
      | none => do
        -- An escape of a code has as many digits as its letter says.
        let count ← wellFormed (codeEscapes.lookup spot.char)
        let code ← wellFormed (hexValue? rest count)
        return ([← characterOf code], rest.drop count)

/-- The white space at the head of a quoted scalar, lines folded, and what follows it. -/
def quotedGap? (spots : List Spot) : Option (List Char × List Spot) :=
  let isBlank (spot : Spot) := isSpace spot.char
  match spots.dropWhile isBlank with
  | [] => none
  -- White space before a line break does not count, nor does that after it.
  | spot :: rest =>
    if isBreak spot.char then
      let (breaks, after, marker) := emptyLines isSpace true rest
      if marker then none else some (folded spot.char breaks, after)
    else some (chars (spots.takeWhile isBlank), spot :: rest)

/-- The mark around a quoted scalar. -/
def quotationMark (double : Bool) : Char := if double then '\x22' else '\x27'

/-- The text after an opening quotation mark, and what follows the closing one; `read` is the text
so far, last character first. -/
def quoted (double : Bool) : Nat → List Char → List Spot → Except Fault (List Char × List Spot)
  | 0, _, _ => .error .notWellFormed
  | _ + 1, _, [] => .error .notWellFormed
  | fuel + 1, read, spot :: rest =>
    let c := spot.char
    if isSpace c || isBreak c then do
      -- White space is looked at as a whole, since line breaks in it are folded.
      let (gap, after) ← wellFormed (quotedGap? (spot :: rest))
      quoted double fuel (gap.reverse ++ read) after
    else if c = quotationMark double then
      -- Two apostrophes in a row stand for one.
      if !double && startsWith c rest then quoted double fuel (c :: read) (rest.drop 1)
      else .ok (read.reverse, rest)
    -- Only double quotation marks let a backslash escape anything.
    else if double && c = '\\' then do
      let (cs, after) ← escape rest
      quoted double fuel (cs.reverse ++ read) after
    else quoted double fuel (c :: read) rest

/-- The characters that have a meaning of their own between brackets and braces. -/
def flowIndicators : List Char := [',', '[', ']', '\x7B', '\x7D']

/-- Whether a plain scalar ends before a character, given what follows that character. -/
def endsPlain (inFlow : Bool) (c : Char) (rest : List Spot) : Bool :=
  isSpace c || isBreak c ||
    -- A colon ends a scalar only before a gap, or before a bracket between brackets.
    (c = ':' && (atGap rest || (inFlow && flowIndicators.any fun i => startsWith i rest))) ||
    (inFlow && (c = '?' || flowIndicators.contains c))

/-- A word of a plain scalar, and what follows it. -/
def plainWord (inFlow : Bool) : List Spot → List Char × List Spot
  | [] => ([], [])
  | spot :: rest =>
    if endsPlain inFlow spot.char rest then ([], spot :: rest)
    else
      let (word, after) := plainWord inFlow rest
      (spot.char :: word, after)

/-- What separates two words of a plain scalar. -/
structure PlainGap where
  text : List Char
  after : List Spot
  broken : Bool
  marker : Bool

/-- The white space after a word of a plain scalar, lines folded. -/
def plainGap (spots : List Spot) : PlainGap :=
  let spaces := chars (spots.takeWhile (·.char = ' '))
  match skipSpaces spots with
  | [] => ⟨spaces, [], false, false⟩
  -- Spaces within a line are kept, those around a line break are not.
  | spot :: rest =>
    if isBreak spot.char then
      let (breaks, after, marker) := emptyLines (· = ' ') true rest
      ⟨folded spot.char breaks, after, true, marker⟩
    else ⟨spaces, spot :: rest, false, false⟩

/-- Whether what is left is indented by less than a number of columns. -/
def isOutdented (indent : Int) : List Spot → Bool
  | [] => true
  | spot :: _ => (spot.column : Int) < indent

/-- The text of a plain scalar, what follows it, and whether it was left over a line break; `gap` is
what comes before the next word. -/
def plain (inFlow : Bool) (indent : Int) :
    Nat → List Char → Bool → List Spot → List Char × List Spot × Bool
  | 0, _, broken, spots => ([], spots, broken)
  | fuel + 1, gap, broken, spots =>
    let (word, after) := plainWord inFlow spots
    -- A scalar has one word at least; without any there is nothing to be read.
    if word.isEmpty then ([], spots, broken)
    else
      let next := plainGap after
      -- The scalar goes on only on its own line or on deeper ones, and not into a comment.
      if next.marker || next.text.isEmpty || startsWith '#' next.after ||
          (!inFlow && isOutdented indent next.after) then
        (gap ++ word, next.after, next.broken)
      else
        -- The gap is only kept once it is known that a word follows it.
        let (more, after, broken) := plain inFlow indent fuel next.text next.broken next.after
        (gap ++ word ++ more, after, broken)

/-- Which of the line breaks at the end of a block belong to its text. -/
inductive Chomping where
  | clip
  | strip
  | keep
deriving DecidableEq, Repr

/-- What comes after the mark of a block. -/
structure BlockHeader where
  chomping : Chomping
  increment : Option Nat
  after : List Spot

/-- A sign for the end of a block, if there is one. -/
def chomping? : List Spot → Option (Chomping × List Spot)
  | [] => none
  | spot :: rest =>
    if spot.char = '+' then some (.keep, rest)
    else if spot.char = '-' then some (.strip, rest)
    else none

/-- A digit for the indentation of a block, if there is one. -/
def increment? : List Spot → Option (Nat × List Spot)
  | [] => none
  | spot :: rest =>
    if '0' ≤ spot.char && spot.char ≤ '9' then some (spot.char.toNat - 0x30, rest) else none

/-- The rest of a line that may only hold a comment. -/
def lineEnd? (spots : List Spot) : Option (List Spot) :=
  let after := skipSpaces spots
  -- A comment may stand behind the header, after a space.
  let after := if startsWith '#' after then skipLine after else after
  match after with
  | [] => some []
  | spot :: rest => if isBreak spot.char then some rest else none

/-- The signs after the mark of a block, in either order. -/
def blockHeader? (spots : List Spot) : Option BlockHeader :=
  let (chomping, increment, after) : Option Chomping × Option Nat × List Spot :=
    -- The two marks of the header may stand in either order.
    match chomping? spots with
    | some (chomping, after) => match increment? after with
      | some (increment, after) => (some chomping, some increment, after)
      | none => (some chomping, none, after)
    | none => match increment? spots with
      | some (increment, after) => match chomping? after with
        | some (chomping, after) => (some chomping, some increment, after)
        | none => (none, some increment, after)
      | none => (none, none, spots)
  -- An increment of zero says nothing, and nothing may be joined to the header.
  if increment = some 0 || !atGap after || startsWith '\t' after then none
  else (lineEnd? after).map fun after => ⟨chomping.getD .clip, increment, after⟩

/-- The breaks of the lines before a block, and the widest indentation among them. -/
def leadingLines : List Spot → List Char × Nat × List Spot
  | [] => ([], 0, [])
  | spot :: rest =>
    let (breaks, widest, after) := leadingLines rest
    if isBreak spot.char then (spot.char :: breaks, widest, after)
    -- A line of spaces counts with its width, even if nothing stands on it.
    else if spot.char = ' ' then (breaks, max widest (spot.column + 1), after)
    else ([], 0, spot :: rest)

/-- The breaks of empty lines inside a block, and what follows the indentation after them. -/
def blockBreaks (indent : Nat) : List Spot → List Char × List Spot
  | [] => ([], [])
  | spot :: rest =>
    -- Spaces up to the indentation belong to no line.
    if spot.char = ' ' && spot.column < indent then blockBreaks indent rest
    else if isBreak spot.char then
      let (breaks, after) := blockBreaks indent rest
      (spot.char :: breaks, after)
    else ([], spot :: rest)

/-- Whether a line of a block begins here. -/
def atBlockLine (indent : Nat) : List Spot → Bool
  | [] => false
  | spot :: _ => spot.column = indent

/-- Whether a space or a tab comes first. -/
def startsSpace : List Spot → Bool
  | [] => false
  | spot :: _ => isSpace spot.char

/-- The lines of a block with the breaks between them, the breaks at its end, and what follows. -/
def blockLines (fold : Bool) (indent : Nat) (chomping : Chomping) :
    Nat → List Char → List Spot → List Char × List Spot
  | 0, _, spots => ([], spots)
  | fuel + 1, breaks, spots =>
    -- A line of a block is taken with all that is on it, comments among it.
    let inLine (spot : Spot) := !isBreak spot.char
    let text := chars (spots.takeWhile inLine)
    let (lineBreak, rest) := match spots.dropWhile inLine with
      | [] => ([], [])
      | spot :: rest => ([spot.char], rest)
    let (following, after) := blockBreaks indent rest
    if atBlockLine indent after then
      -- Lines that are indented further keep the breaks around them.
      let indented := startsSpace spots || startsSpace after
      let joint :=
        if fold && lineBreak = ['\n'] && !indented then
          if following.isEmpty then [' '] else []
        else lineBreak
      let (more, after) := blockLines fold indent chomping fuel following after
      (breaks ++ text ++ joint ++ more, after)
    else
      let final := match chomping with
        -- What becomes of the last line breaks is said in the header.
        | .clip => lineBreak
        | .strip => []
        | .keep => lineBreak ++ following
      (breaks ++ text ++ final, after)

/-- The text of a block after its mark, and what follows it; a block stands deeper than what is
around it. -/
def block? (fold : Bool) (around : Int) (spots : List Spot) : Option (List Char × List Spot) := do
  let header ← blockHeader? spots
  let least := (max 1 (around + 1)).toNat
  -- Without an indentation in its header a block stands as deep as its first lines.
  let (breaks, indent, after) := match header.increment with
    | some increment =>
      let indent := least + increment - 1
      let (breaks, after) := blockBreaks indent header.after
      (breaks, indent, after)
    | none =>
      let (breaks, widest, after) := leadingLines header.after
      (breaks, max least widest, after)
  if atBlockLine indent after then
    return blockLines fold indent header.chomping (after.length + 1) breaks after
  -- Without a line of its own a block has no text but the breaks that it keeps.
  else return (if header.chomping = .keep then breaks else [], after)

end CycleSchedule.Yaml
