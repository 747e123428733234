import CycleSchedule.Text.Digit
import CycleSchedule.Text.Printable
import CycleSchedule.Text.Surrogate

/-! Text between quotation marks, with everything invisible written as an escape. -/

namespace CycleSchedule.Text

/-- The apostrophe, the preferred quotation mark. -/
def apostrophe : Char := '\x27'

/-- The double quotation mark, used around text that holds an apostrophe. -/
def doubleQuote : Char := '\x22'

/-- A hexadecimal escape of the least width, two, four or eight digits, that holds the character. -/
def hexEscape (c : Char) : List Char :=
  let code := codeOfChar c
  -- The shortest of three escapes that has room for the code.
  if code < 0x100 then '\\' :: 'x' :: hexDigits 2 code
  else if code < 0x10000 then '\\' :: 'u' :: hexDigits 4 code
  else '\\' :: 'U' :: hexDigits 8 code

/-- A character inside quotation marks of the given kind, as itself if it is visible. -/
def quoteChar (isVisible : Char → Bool) (mark c : Char) : List Char :=
  -- A backslash is always escaped, a quotation mark only if it is the one in use.
  if c = mark || c = '\\' then ['\\', c]
  else if c = '\n' then ['\\', 'n']
  else if c = '\r' then ['\\', 'r']
  else if c = '\t' then ['\\', 't']
  else if isVisible c then [c]
  -- What is not visible is written by its code.
  else hexEscape c

/-- Apostrophes enclose a text, unless it holds one and no double quotation mark. -/
def quotationMark (cs : List Char) : Char :=
  -- A text with both marks stands in apostrophes, and escapes those inside it.
  if cs.contains apostrophe && !cs.contains doubleQuote then doubleQuote else apostrophe

/-- Characters in quotation marks. -/
def quoteChars (isVisible : Char → Bool) (cs : List Char) : List Char :=
  -- Of the two marks, only the one around the text needs a backslash inside it.
  let mark := quotationMark cs
  mark :: (cs.flatMap (quoteChar isVisible mark) ++ [mark])

/-- A text in quotation marks. -/
def quote (s : String) : String := String.ofList (quoteChars isPrintable s.toList)

/-- Bytes in quotation marks, which have no other visible characters than ASCII ones. -/
def quoteBytes (data : List UInt8) : String :=
  let cs := data.map fun byte => Char.ofNat byte.toNat
  String.ofList ('b' :: quoteChars (fun c => c.toNat < 0x7F && isPrintable c) cs)

end CycleSchedule.Text
