import CycleSchedule.Calendar
import CycleSchedule.Decimal.Binary64

/-! Document values: the data that problem files hold and that registrations may be given. -/

namespace CycleSchedule

/-- A value without parts. -/
inductive Atom where
  | null
  | bool (b : Bool)
  | int (n : Int)
  | float (x : Binary64)
  | text (s : String)
  | bytes (data : List UInt8)
  | date (day : Date)
  | moment (time : Moment)
deriving DecidableEq, Repr

/-- A document value; mappings keep the order of their entries. -/
inductive Value where
  | atom (a : Atom)
  | list (items : List Value)
  | set (items : List Atom)
  | map (entries : List (Atom × Value))
deriving Repr

instance : Inhabited Value := ⟨.atom .null⟩

namespace Atom

/-- Keys that are equal as numbers are one key, whatever their kinds. -/
def keyForm : Atom → Atom
  -- A truth value is one or zero as a key as well.
  | .bool b => .int (if b then 1 else 0)
  | .float x => match x.toInt? with
    | some n => .int n
    | none => .float x
  | a => a

/-- Whether two atoms name the same entry of a mapping. -/
def sameKey : Atom → Atom → Bool
  -- Times are one key where they are one instant, however they are written.
  | .moment a, .moment b => a.isSame b
  | a, b => a.keyForm = b.keyForm

/-- The text that bytes are the UTF-8 form of, if they are of that form. -/
def bytesText? (data : List UInt8) : Option String := String.fromUTF8? ⟨data.toArray⟩

end Atom

namespace Value

/-- The absent value. -/
@[match_pattern] abbrev null : Value := .atom .null

/-- A truth value. -/
@[match_pattern] abbrev bool (b : Bool) : Value := .atom (.bool b)

/-- A whole number. -/
@[match_pattern] abbrev int (n : Int) : Value := .atom (.int n)

/-- A binary floating-point number. -/
@[match_pattern] abbrev float (x : Binary64) : Value := .atom (.float x)

/-- A text. -/
@[match_pattern] abbrev text (s : String) : Value := .atom (.text s)

/-- A mapping with text keys. -/
def record (fields : List (String × Value)) : Value :=
  .map (fields.map fun field => (.text field.1, field.2))

/-- The entries with one more; a key that is already there keeps its place and takes the new value.
-/
def insertEntry (entries : List (Atom × Value)) (key : Atom) (value : Value) :
    List (Atom × Value) :=
  -- The old key stays, even if the new one is equal to it but of another kind.
  if entries.any fun entry => entry.1.sameKey key then
    entries.map fun entry => if entry.1.sameKey key then (entry.1, value) else entry
  else entries ++ [(key, value)]

/-- The mapping that a sequence of entries builds, later ones replacing earlier ones. -/
def ofEntries (entries : List (Atom × Value)) : Value :=
  .map (entries.foldl (fun built entry => insertEntry built entry.1 entry.2) [])

/-- The entry of a mapping with a text key. -/
def field? (value : Value) (name : String) : Option Value :=
  match value with
  | .map entries => (entries.find? fun entry => entry.1 = .text name).map (·.2)
  | _ => none

/-- The whole number that a value counts as; truth values count as one and zero. -/
def toInt? : Value → Option Int
  | .int n => some n
  | .bool b => some (if b then 1 else 0)
  | _ => none

/-- Whether a value is equal to the number zero. -/
def isZero : Value → Bool
  | .int n => n = 0
  -- Truth values are numbers, so that false is zero.
  | .bool b => !b
  | .float x => x.isZero
  | _ => false

/-- Whether a value is zero, absent or empty. -/
def isVoid : Value → Bool
  | .null => true
  | .text s => s.isEmpty
  | .atom (.bytes data) => data.isEmpty
  | .list items => items.isEmpty
  | .set items => items.isEmpty
  | .map entries => entries.isEmpty
  -- All other values are void where they are zero.
  | value => value.isZero

end Value

end CycleSchedule
