import CycleSchedule.Text.Digit
import CycleSchedule.Text.Surrogate
import CycleSchedule.Yaml.Kind
import CycleSchedule.Yaml.Spot

/-! Printing mappings of texts and numbers as documents, one entry a line. -/

namespace CycleSchedule.Yaml

/-- What can be printed. -/
inductive Tree where
  | text (s : String)
  | number (digits : String)
  | mapping (entries : List (String × Tree))
deriving Repr

/-- How a text is written. -/
inductive Style where
  | plain
  | single
  | double
deriving DecidableEq, Repr

/-- The column after which a text is broken at its next space. -/
def widthLimit : Nat := 80

/-- The columns by which every level is indented. -/
def step : Nat := 2

/-- How many characters a key on a line of its own may have at most. -/
def keyLimit : Nat := 122

/-- Whether a character separates words. -/
def isGap (c : Char) : Bool := isSpace c || isBreak c || c = '\r' || c = '\u0085'

/-- Whether a word ends before the characters. -/
def endsWord : List Char → Bool
  | [] => true
  | c :: _ => isGap c

/-- The characters with which no plain text begins. -/
def firstIndicators : List Char :=
  ['#', ',', '[', ']', '\x7B', '\x7D', '&', '*', '!', '|', '>', '\x27', '\x22', '%', '@', '\x60']

/-- Whether a character is special at the start of a text. -/
def isFirstIndicator (c : Char) (rest : List Char) : Bool :=
  -- Some signs are only special with a gap behind them.
  firstIndicators.contains c || ((c = '?' || c = ':' || c = '-') && endsWord rest)

/-- Whether a character after the first one is special: a colon before a gap, a number sign after
one. -/
def hasInnerIndicator : Bool → List Char → Bool
  | _, [] => false
  | afterGap, c :: rest =>
    (c = ':' && endsWord rest) || (c = '#' && afterGap) || hasInnerIndicator (isGap c) rest

/-- Whether a plain text would be taken for something with a structure. -/
def hasIndicator : List Char → Bool
  | [] => false
  | c :: rest =>
    -- Three hyphens or full stops would be taken for a marker.
    "---".toList.isPrefixOf (c :: rest) || "...".toList.isPrefixOf (c :: rest) ||
      isFirstIndicator c rest || hasInnerIndicator (isGap c) rest

/-- Whether a character can be written as it is. -/
def isOrdinary (c : Char) : Bool := ' ' ≤ c && c ≤ '~'

/-- Whether two characters follow each other somewhere. -/
def hasPair (a b : Char) : List Char → Bool
  | c :: d :: rest => (c = a && d = b) || hasPair a b (d :: rest)
  | _ => false

/-- Whether a text begins or ends with a character. -/
def isBordered (c : Char) (cs : List Char) : Bool := cs.head? = some c || cs.getLast? = some c

/-- Whether a text can stand without quotation marks. -/
def allowsPlain (cs : List Char) : Bool :=
  cs.all isOrdinary && !isBordered ' ' cs && !hasIndicator cs

/-- Whether a text can stand between apostrophes. -/
def allowsSingle (cs : List Char) : Bool :=
  -- White space on either side of a line break would be lost.
  cs.all (fun c => isOrdinary c || c = '\n') && !hasPair ' ' '\n' cs && !hasPair '\n' ' ' cs

/-- Whether a plain text reads back as itself. -/
def readsAsText (s : String) : Bool := kindOf s = .text

/-- The simplest style that reads back as the same text. -/
def styleOf (s : String) : Style :=
  -- A text that looks like a number or a word is quoted.
  if readsAsText s && allowsPlain s.toList then .plain
  else if allowsSingle s.toList then .single
  else .double

/-- Where a text is written: whether it may be broken, and the column at which it goes on then. -/
structure Frame where
  breakable : Bool
  indent : Nat

/-- A new line, indented. -/
def Frame.newline (frame : Frame) : List Char := '\n' :: List.replicate frame.indent ' '

/-- The runs of spaces, of line breaks and of other characters that make up a text. -/
def runs (cs : List Char) : List (List Char) :=
  -- Neighbours are in one run if both are spaces, both breaks, or neither of both.
  cs.splitBy fun a b => (a = ' ') = (b = ' ') && (a = '\n') = (b = '\n')

/-- The runs of a plain text from a column on; past the limit, a single space becomes a new line. -/
def plainRuns (frame : Frame) : Nat → List (List Char) → List Char
  | _, [] => []
  | column, run :: rest =>
    -- A space at which a line is broken is not written itself.
    if frame.breakable && run = [' '] && column > widthLimit then
      frame.newline ++ plainRuns frame frame.indent rest
    else run ++ plainRuns frame (column + run.length) rest

/-- A text with its apostrophes doubled. -/
def doubled (run : List Char) : List Char :=
  run.flatMap fun c => if c = '\x27' then [c, c] else [c]

/-- The runs of a text between apostrophes from a column on; a line break is written as one more. -/
def singleRuns (frame : Frame) : Bool → Nat → List (List Char) → List Char
  | _, _, [] => []
  | first, column, run :: rest =>
    -- A single space may be broken at beyond the width, but not at either end of the text.
    if frame.breakable && run = [' '] && column > widthLimit && !first && !rest.isEmpty then
      frame.newline ++ singleRuns frame false frame.indent rest
    else if run.head? = some '\n' then
      -- One line break alone would be read as a space.
      run ++ frame.newline ++ singleRuns frame false frame.indent rest
    else
      let written := doubled run
      written ++ singleRuns frame false (column + written.length) rest

/-- The characters that have an escape of their own, with its letter. -/
def escapeLetters : List (Char × Char) :=
  [('\x00', '0'), ('\x07', 'a'), ('\x08', 'b'), ('\t', 't'), ('\n', 'n'), ('\x0B', 'v'),
    ('\x0C', 'f'), ('\r', 'r'), ('\x1B', 'e'), ('\x22', '\x22'), ('\\', '\\'), ('\u0085', 'N'),
    ('\u00A0', '_'), ('\u2028', 'L'), ('\u2029', 'P')]

/-- Hexadecimal digits in upper case. -/
def upperHex (width code : Nat) : List Char := (Text.hexDigits width code).map Char.toUpper

/-- The escape of a character. -/
def escaped (c : Char) : List Char :=
  -- Some characters have a letter, all others are written by their codes.
  match escapeLetters.lookup c with
  | some letter => ['\\', letter]
  | none =>
    let code := Text.codeOfChar c
    -- The shortest of the three forms is taken that holds the code.
    if code ≤ 0xFF then '\\' :: 'x' :: upperHex 2 code
    else if code ≤ 0xFFFF then '\\' :: 'u' :: upperHex 4 code
    else '\\' :: 'U' :: upperHex 8 code

/-- Whether a character stands for itself between double quotation marks. -/
def isUnescaped (c : Char) : Bool := isOrdinary c && c ≠ '\x22' && c ≠ '\\'

/-- A backslash before a space that would be lost at the start of a line. -/
def keptSpace (cs : List Char) : List Char := if cs.head? = some ' ' then ['\\'] else []

/-- The characters of a text between double quotation marks; `pending` holds those since the last
escape or new line, latest first, and `column` is where they begin. -/
def doubleChars (frame : Frame) : Bool → List Char → Nat → List Char → List Char
  | _, pending, _, [] => pending.reverse
  | first, pending, column, c :: rest =>
    let mayBreak := frame.breakable && !first && !rest.isEmpty
    -- Lines that are too long are left at a space or after an escape.
    if isUnescaped c then
      if mayBreak && (c = ' ' || pending.isEmpty) && column + pending.length > widthLimit then
        let kept := keptSpace [c]
        pending.reverse ++ '\\' :: (frame.newline ++ kept ++
          doubleChars frame false [c] (frame.indent + kept.length) rest)
      else doubleChars frame false (c :: pending) column rest
    else
      let written := pending.reverse ++ escaped c
      let column := column + written.length
      if mayBreak && column > widthLimit + 1 then
        let kept := keptSpace rest
        written ++ '\\' :: (frame.newline ++ kept ++
          doubleChars frame false [] (frame.indent + kept.length) rest)
      else written ++ doubleChars frame false [] column rest

/-- A text from a column on, in the simplest style for it. -/
def printText (frame : Frame) (column : Nat) (s : String) : List Char :=
  let cs := s.toList
  match styleOf s with
  | .plain => plainRuns frame column (runs cs)
  | .single => '\x27' :: (singleRuns frame true (column + 1) (runs cs) ++ ['\x27'])
  | .double => '\x22' :: (doubleChars frame true [] (column + 1) cs ++ ['\x22'])

/-- Whether a key can stand before its colon on one line. -/
def isSimpleKey (key : String) : Bool :=
  -- An empty key cannot stand before its colon without quotation marks.
  !key.isEmpty && key.length ≤ keyLimit &&
    !key.toList.any fun c => isBreak c || c = '\u0085'

/-- A key at a column with the colon after it; a key that is not simple is marked as one. -/
def printKey (indent : Nat) (key : String) : List Char :=
  if isSimpleKey key then printText ⟨false, indent + step⟩ indent key ++ [':']
  else
    '?' :: ' ' :: (printText ⟨true, indent + step⟩ (indent + step) key ++
      (Frame.mk true indent).newline ++ [':'])

/-- The column after the colon of a key. -/
def columnAfter (indent : Nat) (key : String) : Nat :=
  -- The column is that after the colon, wherever the key was broken.
  if isSimpleKey key then indent + (printText ⟨false, indent + step⟩ indent key).length + 1
  else indent + 1

mutual

/-- An entry of a mapping at a column that has been reached already. -/
def printEntry (indent : Nat) (key : String) : Tree → List Char
  | .text s =>
    printKey indent key ++ ' ' ::
      (printText ⟨true, indent + step⟩ (columnAfter indent key + 1) s ++ ['\n'])
  | .number digits => printKey indent key ++ ' ' :: (digits.toList ++ ['\n'])
  -- A mapping without entries stands on the line of its key.
  | .mapping [] => printKey indent key ++ [' ', '\x7B', '\x7D', '\n']
  | .mapping ((first, tree) :: entries) =>
    let lead :=
      -- After a marked key, the first entry of a mapping stands on the line of the colon.
      if isSimpleKey key then (Frame.mk true (indent + step)).newline else [' ']
    printKey indent key ++ lead ++ printEntry (indent + step) first tree ++
      printEntries (indent + step) entries

/-- Entries of a mapping, each on lines of its own. -/
def printEntries (indent : Nat) : List (String × Tree) → List Char
  | [] => []
  | (key, tree) :: entries =>
    List.replicate indent ' ' ++ printEntry indent key tree ++ printEntries indent entries

end

/-- A mapping as a document. -/
def print (entries : List (String × Tree)) : String := String.ofList (printEntries 0 entries)

end CycleSchedule.Yaml
