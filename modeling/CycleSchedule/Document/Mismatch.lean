import CycleSchedule.Value.Basic

/-! Where a document is not what its reader expects, with all such places told at once. -/

namespace CycleSchedule.Document

/-- What was expected of a value. -/
inductive Expectation where
  | text
  | wellFormedText
  | number
  | numeral
  | numeralSize
  | noFraction
  | finite
  | truth
  | truthWord
  | choice
  | mapping
  | list
  | record
  | presence
  | shorthand (complaint : String)
deriving DecidableEq, Repr

/-- The name under which a disappointed expectation is reported. -/
def Expectation.name : Expectation → String
  | text => "string_type"
  | wellFormedText => "string_unicode"
  | number => "int_type"
  | numeral => "int_parsing"
  | numeralSize => "int_parsing_size"
  | noFraction => "int_from_float"
  | finite => "finite_number"
  | truth => "bool_type"
  | truthWord => "bool_parsing"
  | choice => "enum"
  | mapping => "dict_type"
  | list => "list_type"
  | record => "model_type"
  | presence => "missing"
  | shorthand _ => "value_error"

/-- One step from a value into one of its parts. -/
inductive PathStep where
  | field (name : String)
  | index (n : Int)
deriving DecidableEq, Repr

/-- A value that is not what was expected, by its place in the document. -/
structure Mismatch where
  expectation : Expectation
  path : List PathStep
deriving DecidableEq, Repr

/-- The same mismatch seen from one step further out. -/
def Mismatch.within (step : PathStep) (mismatch : Mismatch) : Mismatch :=
  -- The path is built from the inside out, so the outermost step comes first.
  { mismatch with path := step :: mismatch.path }

/-- What reading gives: a result, or every mismatch in order. -/
abbrev Reading (α : Type) := Except (List Mismatch) α

namespace Reading

variable {α β : Type}

/-- The value read is not what was expected. -/
def unexpected (expectation : Expectation) : Reading α := .error [⟨expectation, []⟩]

/-- A reading of a part, with its mismatches placed in the whole. -/
def within (step : PathStep) : Reading α → Reading α
  | .ok a => .ok a
  | .error mismatches => .error (mismatches.map (·.within step))

/-- Two readings side by side; the mismatches of both are told. -/
def both (first : Reading α) (second : Reading β) : Reading (α × β) :=
  match first, second with
  | .ok a, .ok b => .ok (a, b)
  | .ok _, .error later => .error later
  | .error early, .ok _ => .error early
  -- The report of the first part stands in front of that of the second.
  | .error early, .error later => .error (early ++ later)

/-- Readings in a row; the mismatches of all are told. -/
def all : List (Reading α) → Reading (List α)
  | [] => .ok []
  -- Each reading is made, whether or not one before it has failed.
  | first :: rest => (first.both (all rest)).map fun pair => pair.1 :: pair.2

end Reading

/-- A member of a mapping that must be there. -/
def required {α : Type} (read : Value → Reading α) (value : Value) (name : String) : Reading α :=
  match value.field? name with
  | some member => (read member).within (.field name)
  -- What is missing is reported where it should have been.
  | none => (Reading.unexpected .presence).within (.field name)

/-- A member of a mapping that may be missing. -/
def optional {α : Type} (read : Value → Reading α) (value : Value) (name : String) (absent : α) :
    Reading α :=
  match value.field? name with
  | some member => (read member).within (.field name)
  -- What is missing is not reported, and the standard value takes its place.
  | none => .ok absent

end CycleSchedule.Document
