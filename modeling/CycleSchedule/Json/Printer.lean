import CycleSchedule.Text.Surrogate
import CycleSchedule.Value.Display

/-! Writing values as JSON text on one line. -/

namespace CycleSchedule.Json

/-- JSON numbers are laid out as in messages; what is not finite has a capitalised word. -/
def numberLayout : Decimal.Layout :=
  { leastPoint := -3
    greatestPoint := 16
    exponentDigits := 2
    infinity := "Infinity"
    notANumber := "NaN" }

/-- A character inside a JSON string. -/
def escape (c : Char) : List Char :=
  if c = '\x22' then ['\\', '\x22']
  else if c = '\\' then ['\\', '\\']
  else if c = '\n' then ['\\', 'n']
  else if c = '\r' then ['\\', 'r']
  else if c = '\t' then ['\\', 't']
  -- What cannot be seen is written by its code.
  else if c.toNat < 0x20 || c.toNat = 0x7F || Text.isStandIn c then
    '\\' :: 'u' :: Text.hexDigits 4 (Text.codeOfChar c)
  else [c]

/-- A JSON string. -/
def renderText (s : String) : String :=
  String.ofList ('\x22' :: (s.toList.flatMap escape ++ ['\x22']))

/-- An atom as JSON; bytes and dates are written as in messages. -/
def renderAtom : Atom → String
  | .null => "null"
  | .bool b => if b then "true" else "false"
  | .int n => toString n
  | .float x => Decimal.render numberLayout x
  | .text s => renderText s
  -- All other atoms are written as the text that they read as.
  | a => renderText a.literal.spelled

/-- An atom as the name of a member, which is always a string. -/
def renderKey : Atom → String
  | .text s => renderText s
  | a => renderText (renderAtom a)

mutual

/-- A value as JSON. -/
def render : Value → String
  | .atom a => renderAtom a
  | .list items => "[" ++ ",".intercalate (renderItems items) ++ "]"
  -- A set is written as an array, in the order of its items.
  | .set items => "[" ++ ",".intercalate (items.map renderAtom) ++ "]"
  | .map entries => "\x7b" ++ ",".intercalate (renderEntries entries) ++ "\x7d"

/-- The items of an array. -/
def renderItems : List Value → List String
  | [] => []
  | item :: items => render item :: renderItems items

/-- The members of an object. -/
def renderEntries : List (Atom × Value) → List String
  | [] => []
  | (key, value) :: entries => (renderKey key ++ ":" ++ render value) :: renderEntries entries

end

end CycleSchedule.Json
