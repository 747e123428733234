import CycleSchedule.Fault

/-! Linear programs: an objective to minimise over non-negative variables under constraints. -/

namespace CycleSchedule

/-- How the two sides of a constraint compare. -/
inductive Relation where
  | atLeast
  | atMost
  | equal
deriving DecidableEq, Repr

namespace Relation

/-- The symbol of a relation. -/
def symbol : Relation → String
  | atLeast => ">="
  | atMost => "<="
  | equal => "=="

/-- The relation of a symbol. -/
def ofSymbol? (symbol : String) : Option Relation :=
  [atLeast, atMost, equal].find? (·.symbol = symbol)

/-- Whether two numbers stand in a relation. -/
def Holds : Relation → Rat → Rat → Prop
  | atLeast, a, b => b ≤ a
  | atMost, a, b => a ≤ b
  | equal, a, b => a = b

end Relation

/-- A sum of multiples of variables. -/
abbrev LinearForm := NameTable Rat

namespace LinearForm

/-- The value of a form at an assignment. -/
def eval (form : LinearForm) (assignment : String → Rat) : Rat :=
  -- The terms count one by one, so that a name may stand in several of them.
  form.foldr (fun term total => term.2 * assignment term.1 + total) 0

/-- The multiple of a variable in a form; several terms for it count together. -/
def coefficient (form : LinearForm) (name : String) : Rat :=
  -- All terms of a name count, not only the first.
  form.foldr (fun term total => if term.1 = name then term.2 + total else total) 0

/-- The form without the terms that contribute nothing. -/
def nonzero (form : LinearForm) : LinearForm := form.filter (·.2 ≠ 0)

end LinearForm

/-- A bound on a form, with a label that says where it comes from. -/
structure Constraint where
  form : LinearForm
  relation : Relation
  bound : Rat
  label : String
deriving DecidableEq, Repr

namespace Constraint

/-- Whether an assignment satisfies a constraint. -/
def Holds (constraint : Constraint) (assignment : String → Rat) : Prop :=
  constraint.relation.Holds (constraint.form.eval assignment) constraint.bound

/-- A constraint in one line, its label in parentheses. -/
def text (constraint : Constraint) : Phrase :=
  let terms := constraint.form.map fun term => rationalText term.2 ++ "*" ++ term.1
  -- A form without terms still has a value.
  let left : Phrase := if terms.isEmpty then "0" else .joined " + " terms
  let body := left ++ " " ++ constraint.relation.symbol ++ " " ++ rationalText constraint.bound
  if constraint.label.isEmpty then body else body ++ "  (" ++ constraint.label ++ ")"

end Constraint

/-- A linear program. -/
structure LinearProgram where
  unknowns : List String
  constraints : List Constraint
  objective : LinearForm
deriving DecidableEq, Repr

namespace LinearProgram

/-- The program without variables. -/
def empty : LinearProgram := ⟨[], [], []⟩

/-- The program with one more variable, whose name must be new. -/
def addVariable (program : LinearProgram) (name : String) : Except Fault LinearProgram :=
  if program.unknowns.contains name then .error (.rejected (.repeatedVariable name))
  else .ok { program with unknowns := program.unknowns ++ [name] }

/-- The first variable of a form that is not one of the program. -/
def unknownVariable? (program : LinearProgram) (form : LinearForm) : Option String :=
  -- The names are looked through in the order of the terms.
  (form.map (·.1)).find? fun name => !program.unknowns.contains name

/-- The forms under a label may only name variables of the program. -/
def requireVariables (program : LinearProgram) (form : LinearForm) (label : String) :
    -- Only the first unknown name is told of.
    Except Fault Unit :=
  match program.unknownVariable? form with
  | some name => .error (.rejected (.unknownVariable label name))
  | none => .ok ()

/-- The program with one more constraint; its terms may only name variables of the program. -/
def addConstraint (program : LinearProgram) (form : LinearForm) (relation : Relation)
    (bound : Rat) (label : String) : Except Fault LinearProgram := do
  program.requireVariables form label
  -- Terms that contribute nothing are left out once their names have passed.
  let constraint : Constraint := ⟨form.nonzero, relation, bound, label⟩
  return { program with constraints := program.constraints ++ [constraint] }

/-- What one variable exceeds another by. -/
def difference (later earlier : String) : LinearForm :=
  -- A variable differs from itself by zero, whatever its value.
  if later = earlier then [] else [(later, 1), (earlier, -1)]

/-- The program with the constraint that one variable exceeds another by a bound at least. -/
def addDifference (program : LinearProgram) (later earlier : String) (bound : Rat)
    (label : String) : Except Fault LinearProgram :=
  -- The earlier variable is subtracted, so the bound is from below.
  program.addConstraint (difference later earlier) .atLeast bound label

/-- The program with the constraint that a form has a given value. -/
def fix (program : LinearProgram) (form : LinearForm) (value : Rat) (label : String) :
    Except Fault LinearProgram :=
  program.addConstraint form .equal value label

/-- The program with another objective. -/
def minimize (program : LinearProgram) (objective : LinearForm) : Except Fault LinearProgram :=
  match program.unknownVariable? objective with
  | some name => .error (.rejected (.unknownObjectiveVariable name))
  -- Terms that contribute nothing are left out here as well.
  | none => .ok { program with objective := objective.nonzero }

/-- The value of the objective, for which every variable in it has to be given. -/
def evaluate (program : LinearProgram) (values : NameTable Rat) : Except Fault Rat :=
  -- The first variable without a value ends the sum.
  program.objective.foldlM (fun total term => match values.get? term.1 with
    | some value => .ok (total + term.2 * value)
    | none => .error (.missingName term.1)) 0

/-- The non-negative assignments that satisfy every constraint. -/
def Feasible (program : LinearProgram) (assignment : String → Rat) : Prop :=
  (∀ name ∈ program.unknowns, 0 ≤ assignment name) ∧
    ∀ constraint ∈ program.constraints, constraint.Holds assignment

end LinearProgram

end CycleSchedule
