import CycleSchedule.Proofs.Linear.Verdict
import Mathlib.Analysis.Convex.Extreme

/-! Optimal solutions are extreme points of the feasible set, also where other feasible points have
the same objective. -/

namespace CycleSchedule

/-- Two numbers on the same side of a bound have all numbers between them on that side. -/
theorem Relation.Holds.between {relation : Relation} {a b bound s t : Rat}
    (first : relation.Holds a bound) (second : relation.Holds b bound) (hs : 0 ≤ s) (ht : 0 ≤ t)
    (whole : s + t = 1) : relation.Holds (s * a + t * b) bound := by
  -- The bound is a mixture of itself, so each side can be compared part by part.
  have mixed : bound = s * bound + t * bound := by rw [← add_mul, whole, one_mul]
  cases relation with
  | atLeast =>
    show bound ≤ s * a + t * b
    rw [mixed]
    exact add_le_add (mul_le_mul_of_nonneg_left first hs) (mul_le_mul_of_nonneg_left second ht)
  | atMost =>
    show s * a + t * b ≤ bound
    rw [mixed]
    exact add_le_add (mul_le_mul_of_nonneg_left first hs) (mul_le_mul_of_nonneg_left second ht)
  | equal =>
    show s * a + t * b = bound
    rw [mixed, show a = bound from first, show b = bound from second]

namespace LinearProgram

variable {program : LinearProgram} {x y z : String → Rat}

/-- The feasible points, with zero for whatever is no variable of the program. -/
def feasibleSet (program : LinearProgram) : Set (String → Rat) :=
  {x | program.Feasible x ∧ ∀ name ∉ program.unknowns, x name = 0}

/-- What is between two feasible points is feasible. -/
theorem convex_feasible (program : LinearProgram) : Convex Rat {x | program.Feasible x} := by
  intro y yFeasible z zFeasible s t hs ht whole
  refine ⟨fun name member => ?_, fun constraint member => ?_⟩
  · -- No variable is negative at either point.
    exact add_nonneg (mul_nonneg hs (yFeasible.1 name member))
      (mul_nonneg ht (zFeasible.1 name member))
  -- The form is linear, so its value at the mixture is the mixture of its values.
  · have value : constraint.form.eval (s • y + t • z) =
        s * constraint.form.eval y + t * constraint.form.eval z := by
      rw [← LinearForm.eval_smul, ← LinearForm.eval_smul, ← LinearForm.eval_add]
      rfl
    rw [Constraint.Holds, value]
    exact (yFeasible.2 constraint member).between (zFeasible.2 constraint member) hs ht whole

/-- A corner is not in the middle of two feasible points that differ. -/
theorem Corner.eq_of_midpoint (corner : program.Corner x) (wellFormed : program.WellFormed)
    (yFeasible : program.Feasible y) (zFeasible : program.Feasible z)
    (middle : ∀ name ∈ program.unknowns, x name = (y name + z name) / 2) :
    ∀ name ∈ program.unknowns, y name = z name := by
  -- Half of what they differ by leads from the corner to either of them.
  let direction (name : String) : Rat := (y name - z name) / 2
  have forth : program.Feasible fun name => x name + direction name := by
    refine (wellFormed.feasible_congr fun name member => ?_).mp yFeasible
    rw [middle name member]
    ring
  have back : program.Feasible fun name => x name - direction name := by
    refine (wellFormed.feasible_congr fun name member => ?_).mp zFeasible
    rw [middle name member]
    ring
  intro name member
  have still : direction name = 0 := corner.alone direction forth back name member
  simp only [direction] at still
  linarith

/-- A corner without anything but variables is an extreme point. -/
theorem Corner.isExtreme (corner : program.Corner x)
    (outside : ∀ name ∉ program.unknowns, x name = 0) :
    x ∈ Set.extremePoints Rat program.feasibleSet := by
  refine mem_extremePoints.mpr ⟨⟨corner.feasible, outside⟩, ?_⟩
  rintro y ⟨yFeasible, yOutside⟩ z ⟨zFeasible, zOutside⟩ ⟨s, t, hs, ht, whole, between⟩
  -- From the corner one can go as far towards one of the points as towards the other.
  let step := min s t
  have forth : program.Feasible fun name => x name + step * (y name - z name) := by
    have towards := convex_feasible program yFeasible zFeasible
      (show 0 ≤ s + step from (add_pos hs (lt_min hs ht)).le)
      (show 0 ≤ t - step from sub_nonneg.mpr (min_le_right s t)) (by linarith)
    refine cast (congrArg program.Feasible (funext fun name => ?_)) towards
    rw [← congrFun between name]
    simp only [Pi.add_apply, Pi.smul_apply, smul_eq_mul]
    ring
  -- The same step back leads to the second point.
  have back : program.Feasible fun name => x name - step * (y name - z name) := by
    have away := convex_feasible program yFeasible zFeasible
      (show 0 ≤ s - step from sub_nonneg.mpr (min_le_left s t))
      (show 0 ≤ t + step from (add_pos ht (lt_min hs ht)).le) (by linarith)
    refine cast (congrArg program.Feasible (funext fun name => ?_)) away
    rw [← congrFun between name]
    simp only [Pi.add_apply, Pi.smul_apply, smul_eq_mul]
    ring
  have same : y = z := by
    funext name
    by_cases member : name ∈ program.unknowns
    · -- A corner is alone, so neither way leads anywhere.
      have still : step * (y name - z name) = 0 := corner.alone _ forth back name member
      exact sub_eq_zero.mp ((mul_eq_zero.mp still).resolve_left (lt_min hs ht).ne')
    · rw [yOutside name member, zOutside name member]
  subst same
  -- A mean of two equal points is that point.
  have here : y = x := by rw [← between, ← add_smul, whole, one_smul]
  exact ⟨here, here⟩

end LinearProgram

open LinearProgram

/-- An optimal solution is a feasible point that is not in the middle of two others, that is, an
extreme point of the feasible set, even if other feasible points have the same objective. -/
theorem optimal_solution_is_extreme {edits : List Edit}
    (optimal : (ofEdits edits).solve.status = .optimal) :
    let program := ofEdits edits
    let point := program.solve.assignment
    program.Feasible point ∧
      (∀ y z, program.Feasible y → program.Feasible z →
        (∀ name ∈ program.unknowns, point name = (y name + z name) / 2) →
          ∀ name ∈ program.unknowns, y name = z name) ∧
      point ∈ Set.extremePoints Rat program.feasibleSet := by
  intro program point
  have wellFormed : program.WellFormed := wellFormed_ofEdits edits
  have optimum : program.Optimum program.solve := wellFormed.answers_solve.optimum optimal
  refine ⟨optimum.corner.feasible, fun y z yFeasible zFeasible middle =>
    optimum.corner.eq_of_midpoint wellFormed yFeasible zFeasible middle,
    optimum.corner.isExtreme fun name absent => ?_⟩
  -- The solution has no values but those of the variables.
  have unknown : program.solve.values.get? name = none :=
    NameTable.get?_eq_none_iff.mpr (optimum.names ▸ absent)
  rw [Solution.assignment, unknown, Option.getD_none]

/-- Two variables that make up one together, where every way to do so is as good as another. -/
def levelEdits : List Edit :=
  [.addVariable "x", .addVariable "y", .fix [("x", 1), ("y", 1)] 1 "together",
    .addConstraint [("x", 3), ("y", 1)] .atLeast 2 "mostly x", .minimize [("x", 1), ("y", 1)]]

/-- The feasible points of the level program, written out. -/
theorem feasible_levelEdits (x : String → Rat) : (ofEdits levelEdits).Feasible x ↔
    (0 ≤ x "x" ∧ 0 ≤ x "y") ∧ x "x" + x "y" = 1 ∧ 2 ≤ 3 * x "x" + x "y" := by
  have unknowns : (ofEdits levelEdits).unknowns = ["x", "y"] := by decide +kernel
  have constraints : (ofEdits levelEdits).constraints =
      [⟨[("x", 1), ("y", 1)], .equal, 1, "together"⟩,
        ⟨[("x", 3), ("y", 1)], .atLeast, 2, "mostly x"⟩] := by decide +kernel
  rw [Feasible, unknowns, constraints]
  -- With the constraints written out each condition is an inequality between numbers.
  simp [Constraint.Holds, Relation.Holds]

/-- The solution is not halfway between the two corners. -/
theorem levelEdits_extreme :
    (ofEdits levelEdits).solve.status = .optimal ∧
      ¬((ofEdits levelEdits).solve.assignment "x" = 3 / 4 ∧
        (ofEdits levelEdits).solve.assignment "y" = 1 / 4) := by
  have optimal : (ofEdits levelEdits).solve.status = .optimal := by decide +kernel
  refine ⟨optimal, fun ⟨here, there⟩ => ?_⟩
  -- The point that is denied lies halfway between two feasible ones.
  let first (_ : String) : Rat := 1 / 2
  let second (name : String) : Rat := if name = "x" then 1 else 0
  obtain ⟨secondX, secondY⟩ : second "x" = 1 ∧ second "y" = 0 := by simp [second]
  have unknowns : (ofEdits levelEdits).unknowns = ["x", "y"] := by decide +kernel
  -- Both points differ from the corner in one coordinate at least.
  have same := (optimal_solution_is_extreme optimal).2.1 first second
    ((feasible_levelEdits first).mpr (by norm_num [first]))
    ((feasible_levelEdits second).mpr (by rw [secondX, secondY]; norm_num)) (by
      rw [unknowns]
      simp only [List.forall_mem_cons, here, there, secondX, secondY, first]
      norm_num) "x" (unknowns ▸ List.mem_cons_self)
  rw [secondX] at same
  norm_num [first] at same

end CycleSchedule
