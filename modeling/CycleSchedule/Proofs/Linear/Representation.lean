import CycleSchedule.Proofs.Linear.Strict.Solver
import Mathlib.Data.List.Forall2

/-! What the starting tableau of a program stands for: its rows, with slacks that are not negative
and without artificial columns, hold just for the assignments that satisfy the program. -/

namespace CycleSchedule

variable {unknowns : List String} {form : LinearForm} {constraint : Constraint}

namespace Strict

/-- Only variables have a column. -/
theorem mem_of_valueOf (distinct : unknowns.Nodup) {name : String} {column : Nat}
    (found : valueOf (columnTable unknowns) name = .ok column) : name ∈ unknowns := by
  have names : (unknowns.zipIdx.map (·.1)).Nodup := by simpa using distinct
  cases isFound : (columnTable unknowns).get? name with
  | none => simp [valueOf, isFound] at found
  | some place =>
    -- The table lists the variables, each with its place.
    have member := NameTable.mem_names_of_get? isFound
    rw [columnTable, NameTable.ofPairs_of_nodup names, NameTable.names,
      List.zipIdx_map_fst 0 unknowns] at member
    exact member

/-- A form is spread over the columns only if all of its variables are known. -/
theorem known_of_spread (distinct : unknowns.Nodup) {width : Nat} {row : List Rat}
    (spreads : spread (columnTable unknowns) width form = .ok row) :
    ∀ term ∈ form, term.1 ∈ unknowns := by
  intro term member
  -- Some step of the spreading has looked up the column of the variable.
  obtain ⟨before, after, step⟩ := exists_of_foldlM_ok spreads term member
  obtain ⟨column, found, _⟩ := bind_eq_ok_iff.mp step
  exact mem_of_valueOf distinct found

/-- Constraints are turned into entries only if all of their variables are known. -/
theorem known_of_entries (distinct : unknowns.Nodup) {width : Nat} {constraints : List Constraint} :
    ∀ {column : Nat} {listed : List Entry},
      entries (columnTable unknowns) width column constraints = .ok listed →
      ∀ constraint ∈ constraints, ∀ term ∈ constraint.form, term.1 ∈ unknowns := by
  -- The induction is on the constraints; each of them takes its turn with its own slack column.
  induction constraints with
  | nil => simp
  | cons constraint constraints ih =>
    intro column listed made
    rw [entries] at made
    obtain ⟨first, here, rest⟩ := bind_eq_ok_iff.mp made
    obtain ⟨others, there, _⟩ := bind_eq_ok_iff.mp rest
    obtain ⟨decision, spreads, _⟩ := bind_eq_ok_iff.mp here
    exact List.forall_mem_cons.mpr ⟨known_of_spread distinct spreads, ih there⟩

end Strict

namespace LinearProgram

open Tableau

variable {program : LinearProgram} {x : String → Rat} {y z : Nat → Rat}

/-- Every constraint names variables of the program only. -/
def Known (program : LinearProgram) : Prop :=
  ∀ constraint ∈ program.constraints, ∀ term ∈ constraint.form, term.1 ∈ program.unknowns

/-- What is said about rows and constraints does not depend on the objective. -/
theorem Known.wellFormed (known : program.Known) (distinct : program.unknowns.Nodup) :
    { program with objective := [] }.WellFormed :=
  ⟨distinct, known, by simp⟩

/-- The rows of known constraints are those of the starting tableau. -/
theorem Known.layOut_ok (known : program.Known) (distinct : program.unknowns.Nodup) :
    Strict.layOut program = .ok (program.columns, program.startingTableau.sheet) := by
  have laid := Strict.layOut_ok (known.wellFormed distinct)
  exact laid

/-- Rows can be laid out for known constraints and for no others. -/
theorem exists_layOut_iff (distinct : program.unknowns.Nodup) :
    (∃ built, Strict.layOut program = .ok built) ↔ program.Known := by
  constructor
  · -- What has been laid out has looked up every variable of every constraint.
    rintro ⟨built, laid⟩
    obtain ⟨listed, made, _⟩ := bind_eq_ok_iff.mp laid
    exact Strict.known_of_entries distinct made
  · intro known
    exact ⟨_, known.layOut_ok distinct⟩

/-- Of the two signs that a slack can have, an equation takes the one that makes its right-hand side
positive, or for a right-hand side of zero the slack. -/
theorem slack_equation : (constraint.equation unknowns).slack =
    if constraint.bound < 0 ∨ constraint.bound = 0 ∧ constraint.relation.slack = -1 then
      -constraint.relation.slack
    else constraint.relation.slack := by
  -- A constraint with a negative bound is turned round, and its slack with it.
  simp only [Constraint.equation, Bool.or_eq_true, Bool.and_eq_true, decide_eq_true_eq]
  split
  · rfl
  · rfl

/-- The slack of an inequality that the origin satisfies can be basic, and no other one can. -/
theorem slackIsBasic_iff : (constraint.equation unknowns).slackIsBasic = true ↔
    constraint.relation ≠ .equal ∧ constraint.Holds fun _ => 0 := by
  rw [Equation.slackIsBasic, decide_eq_true_eq, slack_equation, Constraint.Holds,
    LinearForm.eval_origin]
  cases constraint.relation with
  | equal => simp [Relation.slack]
  | atLeast =>
    -- Negation gives the slack the coefficient one, and happens for all bounds up to zero.
    have apart : Relation.atLeast ≠ Relation.equal := by simp
    have holds : Relation.Holds .atLeast 0 constraint.bound = (constraint.bound ≤ 0) := rfl
    rw [show Relation.slack .atLeast = -1 from rfl, holds, le_iff_lt_or_eq, and_iff_right apart]
    split
    · rename_i negated
      simpa using negated
    · rename_i kept
      norm_num at kept ⊢
      exact kept
  | atMost =>
    -- The slack has the coefficient one unless it is negated, which happens below zero.
    have apart : Relation.atMost ≠ Relation.equal := by simp
    have holds : Relation.Holds .atMost 0 constraint.bound = (0 ≤ constraint.bound) := rfl
    rw [show Relation.slack .atMost = 1 from rfl, holds, and_iff_right apart]
    split
    · rename_i negated
      norm_num at negated ⊢
      exact negated
    · rename_i kept
      norm_num at kept ⊢
      exact kept

/-- The row of a constraint has an artificial basic column unless its slack can be basic. -/
theorem real_le_basic_iff {place : Nat} (located : program.constraints[place]? = some constraint) :
    ∃ row, program.startingTableau.rows[place]? = some row ∧
      (program.columns.real ≤ row.basic ↔
        constraint.relation = .equal ∨ ¬ constraint.Holds fun _ => 0) := by
  have found : program.equations[place]? = some (constraint.equation program.unknowns) := by
    simp [equations, located]
  refine ⟨_, by rw [getElem?_startingTableau, found, Option.map_some], ?_⟩
  rw [basic_startingRow]
  have opposite := not_congr (@slackIsBasic_iff program.unknowns constraint)
  rw [not_and_or, not_ne_iff] at opposite
  refine Iff.trans ?_ opposite
  cases basic : (constraint.equation program.unknowns).slackIsBasic with
  | true =>
    -- Slack columns come before all artificial ones.
    have low := slackColumn_lt found (slack_ne_zero_of_basic basic)
    simpa using low
  | false => simp [artificialColumn]

/-- Columns that extend an assignment of the variables by slacks that are not negative and by
artificial columns that are zero. -/
structure Extends (program : LinearProgram) (x : String → Rat) (y : Nat → Rat) : Prop where
  agrees : program.Agrees x y
  slacks : ∀ column, program.columns.decisions ≤ column → column < program.columns.real →
    0 ≤ y column
  artificials : ∀ column < program.columns.width, program.columns.real ≤ column → y column = 0

/-- What extends an assignment without negative values has none in its columns either. -/
theorem Extends.admits (extends_ : program.Extends x y)
    (nonneg : ∀ name ∈ program.unknowns, 0 ≤ x name) :
    Admits program.columns.width (· < program.columns.real) y where
  nonneg column within := by
    rcases Nat.lt_or_ge column program.columns.decisions with decision | beyond
    · -- The first columns are those of the variables.
      rw [extends_.agrees column decision]
      exact nonneg _ (List.getElem_mem _)
    · rcases Nat.lt_or_ge column program.columns.real with low | high
      · exact extends_.slacks column beyond low
      · exact (extends_.artificials column within high).ge
  zero column within refused := extends_.artificials column within (by simpa using refused)

/-- A point of the real columns that agrees with a point of the program extends it. -/
theorem Extends.of_admits (agrees : program.Agrees x y)
    (admits : Admits program.columns.width (· < program.columns.real) y) :
    program.Extends x y where
  agrees := agrees
  slacks column _ low := admits.nonneg column (low.trans_le real_le_width)
  artificials := eq_zero_of_admits admits

/-- The rows hold for some extension just of the assignments that satisfy all constraints. -/
theorem Known.satisfies_iff (known : program.Known) (distinct : program.unknowns.Nodup)
    (nonneg : ∀ name ∈ program.unknowns, 0 ≤ x name) :
    (∀ constraint ∈ program.constraints, constraint.Holds x) ↔
      ∃ y, program.Extends x y ∧ program.startingTableau.Solves y := by
  have wellFormed := known.wellFormed distinct
  constructor
  · intro holds
    -- Slacks that fill the gaps up extend a feasible point to a solution.
    obtain ⟨y, agrees, solves, admits⟩ := wellFormed.exists_solves ⟨nonneg, holds⟩
    exact ⟨y, .of_admits agrees admits, solves⟩
  · rintro ⟨y, extends_, solves⟩
    -- Back again, a solution of the rows satisfies the constraints on its variables.
    exact (wellFormed.feasible_of_solves extends_.agrees solves (extends_.admits nonneg)).2

/-- Two solutions that extend the same assignment are the same. -/
theorem Extends.unique (first : program.Extends x y) (second : program.Extends x z)
    (firstSolves : program.startingTableau.Solves y)
    (secondSolves : program.startingTableau.Solves z) :
    ∀ column < program.columns.width, y column = z column :=
  eq_of_agrees first.agrees second.agrees firstSolves secondSolves first.artificials
    second.artificials

/-- Constraints and rows come in the same order, and the basic column of a row is an artificial one
for equalities and for inequalities that the origin violates. -/
theorem forall₂_artificial (program : LinearProgram) :
    List.Forall₂ (fun constraint (row : Row) => program.columns.real ≤ row.basic ↔
      constraint.relation = .equal ∨ ¬ constraint.Holds fun _ => 0)
      program.constraints program.startingTableau.rows := by
  -- Rows and constraints correspond place by place.
  have sized : program.constraints.length = program.startingTableau.rows.length := by
    simp [startingTableau, equations]
  refine List.forall₂_iff_get.mpr ⟨sized, fun place within inside => ?_⟩
  obtain ⟨row, found, artificial⟩ := real_le_basic_iff (List.getElem?_eq_getElem within)
  obtain ⟨_, same⟩ := List.getElem?_eq_some_iff.mp found
  simpa only [List.get_eq_getElem, same] using artificial

end LinearProgram

/-- For a program with distinct variables rows can be laid out just if its constraints name no other
variables. They make up a canonical tableau without negative right-hand sides, in which a row has an
artificial basic column just if its constraint is an equality or violated by the origin. Of the
assignments without negative values exactly those that satisfy the constraints extend to a solution
of the rows by slacks that are not negative and zero artificial columns, and to no other one. -/
theorem startingTableau_represents_program {program : LinearProgram}
    (distinct : program.unknowns.Nodup) :
    ((∃ built, Strict.layOut program = .ok built) ↔ program.Known) ∧
      ∀ columns sheet, Strict.layOut program = .ok (columns, sheet) →
        let start := program.startingTableau
        columns = program.columns ∧ sheet = start.sheet ∧ start.Feasible ∧
        start.Canonical columns.width ∧
        List.Forall₂ (fun constraint (row : Row) => columns.real ≤ row.basic ↔
          constraint.relation = .equal ∨ ¬ constraint.Holds fun _ => 0)
          program.constraints start.rows ∧
        (∀ x, (∀ name ∈ program.unknowns, 0 ≤ x name) →
          ((∀ constraint ∈ program.constraints, constraint.Holds x) ↔
            ∃ y, program.Extends x y ∧ start.Solves y)) ∧
        ∀ x y z, program.Extends x y → start.Solves y → program.Extends x z → start.Solves z →
          ∀ column < columns.width, y column = z column := by
  refine ⟨LinearProgram.exists_layOut_iff distinct, fun columns sheet laid => ?_⟩
  intro start
  have known := (LinearProgram.exists_layOut_iff distinct).mp ⟨_, laid⟩
  -- What has been laid out is the starting tableau, with the columns of the program.
  obtain ⟨rfl, rfl⟩ := Prod.mk.inj (Except.ok.inj (laid.symm.trans (known.layOut_ok distinct)))
  refine ⟨rfl, rfl, LinearProgram.feasible_startingTableau program,
    LinearProgram.canonical_startingTableau program, LinearProgram.forall₂_artificial program,
    fun x nonneg => known.satisfies_iff distinct nonneg, ?_⟩
  intro x y z first firstSolves second secondSolves
  exact first.unique second firstSolves secondSolves

/-- All relations, with bounds on both sides of zero. -/
def LinearProgram.mixed : LinearProgram :=
  { unknowns := ["x", "y"]
    constraints :=
      [⟨[("x", 1), ("y", 1)], .atLeast, 0, ""⟩, ⟨[("x", 1), ("y", 1)], .atLeast, 2, ""⟩,
        ⟨[("x", 1), ("y", -1)], .atLeast, -1, ""⟩, ⟨[("x", 1)], .atMost, 3, ""⟩,
        ⟨[("y", 1), ("x", -1)], .atMost, -1, ""⟩, ⟨[("x", 1), ("y", 1)], .equal, 4, ""⟩,
        ⟨[("y", 1), ("x", -1)], .equal, -2, ""⟩]
    objective := [] }

/-- Of seven constraints the origin violates two, and two more are equalities. -/
theorem mixed_startingTableau :
    let program := LinearProgram.mixed
    let start := program.startingTableau
    program.unknowns.Nodup ∧ ∃ columns sheet, Strict.layOut program = .ok (columns, sheet) ∧
      columns = ⟨2, 5, 4⟩ ∧ start.rows.map (·.basic) = [2, 7, 4, 5, 8, 9, 10] ∧
      start.rows.map (·.rhs) = [0, 2, 1, 3, 1, 4, 2] ∧
      sheet = start.sheet ∧ start.Feasible ∧ start.Canonical columns.width ∧
      (∀ x, (∀ name ∈ program.unknowns, 0 ≤ x name) →
        ((∀ constraint ∈ program.constraints, constraint.Holds x) ↔
          ∃ y, program.Extends x y ∧ start.Solves y)) ∧
      ∀ x y z, program.Extends x y → start.Solves y → program.Extends x z → start.Solves z →
        ∀ column < columns.width, y column = z column := by
  intro program start
  have distinct : program.unknowns.Nodup := by decide
  have known : program.Known := by
    unfold LinearProgram.Known
    -- Every variable of every constraint is listed.
    decide
  obtain ⟨laysOut, represents⟩ := startingTableau_represents_program distinct
  obtain ⟨⟨columns, sheet⟩, laid⟩ := laysOut.mpr known
  obtain ⟨rfl, sheets, feasible, canonical, _, satisfies, unique⟩ := represents _ _ laid
  exact ⟨distinct, _, _, laid, by decide +kernel, by decide +kernel, by decide +kernel, sheets,
    feasible, canonical, satisfies, unique⟩

end CycleSchedule
