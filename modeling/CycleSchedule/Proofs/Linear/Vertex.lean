import CycleSchedule.Proofs.Linear.Eviction
import CycleSchedule.Proofs.Linear.Start
import Mathlib.Algebra.Order.Floor.Ring
import Mathlib.Data.Rat.Floor

/-! The basic point of a tableau is a corner of the program, and corners of programs whose
constraints compare whole numbers are whole. -/

namespace CycleSchedule

namespace LinearProgram

open Tableau

variable {program : LinearProgram} {x : String → Rat}

/-- A tableau whose solutions below the artificial columns are those of the starting tableau, and
which has a feasible basic point among them. -/
structure Ready (program : LinearProgram) (tableau : Tableau) : Prop where
  canonical : tableau.Canonical program.columns.width
  feasible : tableau.Feasible
  real : ∀ row ∈ tableau.rows, row.basic < program.columns.real
  same : SameBelow program.columns.width program.columns.real program.startingTableau tableau

section Ready

variable {tableau : Tableau}

/-- The basic point has no artificial column. -/
theorem Ready.columnValue_eq_zero (ready : program.Ready tableau) {column : Nat}
    (high : program.columns.real ≤ column) : tableau.columnValue column = 0 := by
  -- No row is solved for an artificial column.
  refine columnValue_of_not_mem fun basic => ?_
  obtain ⟨row, member, rfl⟩ := mem_basics.mp basic
  exact absurd (ready.real row member) (not_lt.mpr high)

/-- The basic point admits no column that a real program does not have. -/
theorem Ready.admits_columnValue (ready : program.Ready tableau) :
    Admits program.columns.width (· < program.columns.real) tableau.columnValue where
  nonneg column _ := ready.canonical.columnValue_nonneg ready.feasible column
  zero column _ refused := ready.columnValue_eq_zero (by simpa using refused)

/-- What a ready tableau reports solves the rows that the program started with. -/
theorem Ready.solves_columnValue (ready : program.Ready tableau) :
    program.startingTableau.Solves tableau.columnValue :=
  (ready.same _ fun _ _ high => ready.columnValue_eq_zero high).mp
    ready.canonical.solves_columnValue

/-- The basic point is feasible. -/
theorem Ready.feasible_of_agrees (ready : program.Ready tableau) (wellFormed : program.WellFormed)
    (agrees : program.Agrees x tableau.columnValue) : program.Feasible x :=
  wellFormed.feasible_of_solves agrees ready.solves_columnValue ready.admits_columnValue

/-- Two admitted solutions with the basic point in the middle are that point themselves. -/
theorem Ready.eq_columnValue (ready : program.Ready tableau) {above below : Nat → Rat}
    (solves : program.startingTableau.Solves above)
    (aboveAdmits : Admits program.columns.width (· < program.columns.real) above)
    (belowAdmits : Admits program.columns.width (· < program.columns.real) below)
    (middle : ∀ column < program.columns.width,
      above column + below column = 2 * tableau.columnValue column) :
    ∀ column < program.columns.width, above column = tableau.columnValue column := by
  refine ready.canonical.solution_unique
    ((ready.same above (eq_zero_of_admits aboveAdmits)).mpr solves)
    ready.canonical.solves_columnValue fun column within free => ?_
  -- Where the basic point is zero, two non-negative points around it are zero as well.
  have zero := middle column within
  rw [columnValue_of_not_mem free] at zero ⊢
  have first := aboveAdmits.nonneg column within
  have second := belowAdmits.nonneg column within
  linarith

end Ready

/-- A feasible point from which no line leads into the feasible points in both directions. -/
structure Corner (program : LinearProgram) (x : String → Rat) : Prop where
  feasible : program.Feasible x
  alone : ∀ direction : String → Rat,
    program.Feasible (fun name => x name + direction name) →
    program.Feasible (fun name => x name - direction name) →
    ∀ name ∈ program.unknowns, direction name = 0

/-- Corners among the points at which an objective is least are corners among all feasible points:
where one step would raise the objective, the step back would lower it. -/
theorem Corner.of_face {held : LinearProgram} (objective : LinearForm) (corner : held.Corner x)
    (same : held.unknowns = program.unknowns)
    (feasible : ∀ y, held.Feasible y ↔ program.Feasible y ∧ objective.eval y = objective.eval x)
    (least : ∀ y, program.Feasible y → objective.eval x ≤ objective.eval y) :
    program.Corner x := by
  refine ⟨((feasible x).mp corner.feasible).1, fun direction forth back => ?_⟩
  have ahead : objective.eval (fun name => x name + direction name) =
      objective.eval x + objective.eval direction :=
    LinearForm.eval_add objective x direction
  have behind : objective.eval (fun name => x name - direction name) =
      objective.eval x - objective.eval direction := by
    have opposite := LinearForm.eval_add objective x fun name => -1 * direction name
    rw [LinearForm.eval_smul] at opposite
    simpa [sub_eq_add_neg] using opposite
  -- Neither step can lower the objective, so both keep it as it is.
  have up := least _ forth
  have down := least _ back
  rw [ahead] at up
  rw [behind] at down
  have level : objective.eval direction = 0 := by linarith
  -- Both steps stay on the face, of which the point is a corner.
  rw [← same]
  refine corner.alone direction ((feasible _).mpr ⟨forth, ?_⟩) ((feasible _).mpr ⟨back, ?_⟩)
  · rw [ahead, level, add_zero]
  · rw [behind, level, sub_zero]

/-- The basic point is a corner. -/
theorem Ready.corner {tableau : Tableau} (ready : program.Ready tableau)
    (wellFormed : program.WellFormed) (agrees : program.Agrees x tableau.columnValue) :
    program.Corner x := by
  refine ⟨ready.feasible_of_agrees wellFormed agrees, fun direction forth back => ?_⟩
  -- Both steps are feasible, so they are solutions of the tableau.
  obtain ⟨above, aboveAgrees, aboveSolves, aboveAdmits⟩ := wellFormed.exists_solves forth
  obtain ⟨below, belowAgrees, belowSolves, belowAdmits⟩ := wellFormed.exists_solves back
  -- The middle of the two is the basic point, slacks included.
  let middle (column : Nat) : Rat := (1 / 2) * (above column + below column)
  have middleAgrees : program.Agrees x middle := fun place within => by
    simp only [middle, aboveAgrees place within, belowAgrees place within]
    ring
  have middleSolves : program.startingTableau.Solves middle := fun row member => by
    rw [combine_smul, combine_add, aboveSolves row member, belowSolves row member]
    ring
  have middleZero : ∀ column < program.columns.width, program.columns.real ≤ column →
      middle column = 0 := fun column within high => by
    simp only [middle, eq_zero_of_admits aboveAdmits column within high,
      eq_zero_of_admits belowAdmits column within high]
    ring
  -- It agrees with the basic point on the variables, and so on the slacks.
  have same := eq_of_agrees middleAgrees agrees middleSolves ready.solves_columnValue middleZero
    (fun _ _ high => ready.columnValue_eq_zero high)
  have equal := ready.eq_columnValue aboveSolves aboveAdmits belowAdmits fun column within => by
    rw [← same column within]
    ring
  -- So the step forth has led nowhere.
  intro name member
  obtain ⟨place, within, rfl⟩ := List.mem_iff_getElem.mp member
  have here := equal place (within.trans_le length_unknowns_le)
  rw [aboveAgrees place within, agrees place within] at here
  linarith

end LinearProgram

section Whole

variable {program : LinearProgram} {x : String → Rat}

/-- The variables whose values lie the same part of one above a whole number. -/
def sharing (x : String → Rat) (part : Rat) (name : String) : Rat :=
  if Int.fract (x name) = part then 1 else 0

/-- A constraint that can bear a shift: it does not notice it, or it has room for it. -/
def Constraint.Bears (constraint : Constraint) (x direction : String → Rat) : Prop :=
  constraint.form.eval direction = 0 ∨
    constraint.relation = .atLeast ∧ constraint.bound < constraint.form.eval x

/-- A constraint that can bear a shift also holds after a small one, either way. -/
theorem Constraint.Bears.exists_margin {constraint : Constraint} {direction : String → Rat}
    (bears : constraint.Bears x direction) (holds : constraint.Holds x) :
    ∃ margin : Rat, 0 < margin ∧ ∀ amount : Rat, |amount| ≤ margin →
      constraint.Holds fun name => x name + amount * direction name := by
  rcases bears with still | ⟨atLeast, room⟩
  · -- A constraint that does not notice the shift holds after any amount of it.
    refine ⟨1, one_pos, fun amount _ => ?_⟩
    rw [Constraint.Holds, LinearForm.eval_add, LinearForm.eval_smul, still, mul_zero, add_zero]
    exact holds
  · -- The form changes by no more than the room there is.
    let change := constraint.form.eval direction
    have positive : 0 < |change| + 1 := by positivity
    refine ⟨(constraint.form.eval x - constraint.bound) / (|change| + 1),
      div_pos (by linarith) positive, fun amount small => ?_⟩
    rw [Constraint.Holds, LinearForm.eval_add, LinearForm.eval_smul, atLeast]
    show constraint.bound ≤ constraint.form.eval x + amount * change
    rw [le_div_iff₀ positive] at small
    have product : |amount * change| ≤ |amount| * (|change| + 1) := by
      rw [abs_mul]
      exact mul_le_mul_of_nonneg_left (by linarith) (abs_nonneg _)
    have low := neg_abs_le (amount * change)
    linarith

/-- Finitely many margins have a common one. -/
theorem exists_common_margin {α : Type} {items : List α} {good : α → Rat → Prop}
    (each : ∀ item ∈ items, ∃ margin : Rat, 0 < margin ∧ ∀ amount : Rat, |amount| ≤ margin →
      good item amount) :
    ∃ margin : Rat, 0 < margin ∧ ∀ amount : Rat, |amount| ≤ margin →
      ∀ item ∈ items, good item amount := by
  -- The least of the margins is good for all items.
  induction items with
  | nil => exact ⟨1, one_pos, by simp⟩
  | cons head tail ih =>
    obtain ⟨first, firstPositive, headGood⟩ := each head (by simp)
    obtain ⟨second, secondPositive, tailGood⟩ :=
      ih fun item member => each item (List.mem_cons_of_mem _ member)
    refine ⟨min first second, lt_min firstPositive secondPositive, fun amount small => ?_⟩
    rw [List.forall_mem_cons]
    exact ⟨headGood amount (small.trans (min_le_left _ _)),
      tailGood amount (small.trans (min_le_right _ _))⟩

/-- A corner is whole if all constraints can bear to have the variables shifted that lie the same
part of one above a whole number. -/
theorem LinearProgram.Corner.whole (corner : program.Corner x)
    (bears : ∀ part : Rat, part ≠ 0 → ∀ constraint ∈ program.constraints,
      constraint.Bears x (sharing x part)) :
    ∀ name ∈ program.unknowns, Int.fract (x name) = 0 := by
  intro name member
  by_contra fractional
  -- All variables that lie as far above a whole number as this one are shifted together.
  let part := Int.fract (x name)
  obtain ⟨room, roomPositive, constraintsHold⟩ := exists_common_margin
    fun constraint inside => (bears part fractional constraint inside).exists_margin
      (corner.feasible.2 constraint inside)
  have bounded : ∀ other ∈ program.unknowns, ∃ margin : Rat, 0 < margin ∧ ∀ amount : Rat,
      |amount| ≤ margin → 0 ≤ x other + amount * sharing x part other := by
    intro other otherMember
    have nonneg := corner.feasible.1 other otherMember
    by_cases same : Int.fract (x other) = part
    · -- A value that is not whole is not zero.
      have positive : 0 < x other := by
        refine lt_of_le_of_ne nonneg fun zero => fractional ?_
        show part = 0
        rw [← same, ← zero, Int.fract_zero]
      refine ⟨x other, positive, fun amount small => ?_⟩
      have low := neg_abs_le amount
      simp only [sharing, if_pos same, mul_one]
      linarith
    · refine ⟨1, one_pos, fun amount _ => ?_⟩
      simpa only [sharing, if_neg same, mul_zero, add_zero] using nonneg
  obtain ⟨space, spacePositive, variablesHold⟩ := exists_common_margin bounded
  -- A step that all constraints bear leads both ways, which no corner allows.
  let step := min room space
  have stepPositive : 0 < step := lt_min roomPositive spacePositive
  have feasible (amount : Rat) (small : |amount| ≤ step) :
      program.Feasible fun other => x other + amount * sharing x part other :=
    ⟨variablesHold amount (small.trans (min_le_right _ _)),
      constraintsHold amount (small.trans (min_le_left _ _))⟩
  have still := corner.alone (fun other => step * sharing x part other)
    (feasible step (abs_of_pos stepPositive).le) (by
      have back := feasible (-step) (by rw [abs_neg, abs_of_pos stepPositive])
      simpa only [neg_mul, ← sub_eq_add_neg] using back) name member
  have own : sharing x part name = 1 := if_pos rfl
  rw [own, mul_one] at still
  exact stepPositive.ne' still

end Whole

end CycleSchedule
