import CycleSchedule.Proofs.Linear.Combination
import Mathlib.Data.List.Nodup

/-! Well-formed linear programs, whose forms only name their variables, and how adding constraints
changes what is feasible. -/

namespace CycleSchedule

namespace LinearForm

/-- The empty form has the value 0 everywhere. -/
@[simp] theorem eval_nil (x : String → Rat) : eval [] x = 0 := rfl

/-- The first term of a form adds its coefficient times its variable. -/
@[simp] theorem eval_cons (term : String × Rat) (form : LinearForm) (x : String → Rat) :
    eval (term :: form) x = term.2 * x term.1 + eval form x := rfl

/-- The first term adds to the coefficient of its own name only. -/
theorem coefficient_cons (term : String × Rat) (form : LinearForm) (name : String) :
    coefficient (term :: form) name =
      (if term.1 = name then term.2 else 0) + coefficient form name := by
  by_cases same : term.1 = name <;> simp [coefficient, same]

/-- Terms that contribute nothing can be left out. -/
theorem eval_nonzero (form : LinearForm) (x : String → Rat) :
    form.nonzero.eval x = form.eval x := by
  -- Terms with a coefficient of zero add nothing.
  induction form with
  | nil => rfl
  | cons term form ih =>
    by_cases zero : term.2 = 0
    · simpa [nonzero, zero] using ih
    · simpa [nonzero, zero] using ih

/-- A form is additive in its point. -/
theorem eval_add (form : LinearForm) (x y : String → Rat) :
    form.eval (fun name => x name + y name) = form.eval x + form.eval y := by
  induction form with
  | nil => simp
  | cons term form ih =>
    -- The terms add up one by one.
    simp only [eval_cons, ih]
    ring

/-- A form is homogeneous in its point. -/
theorem eval_smul (form : LinearForm) (factor : Rat) (x : String → Rat) :
    form.eval (fun name => factor * x name) = factor * form.eval x := by
  induction form with
  | nil => simp
  | cons term form ih =>
    -- The factor comes out of each term.
    simp only [eval_cons, ih]
    ring

/-- Joined forms have the sum of their values. -/
theorem eval_append (first second : LinearForm) (x : String → Rat) :
    eval (first ++ second) x = eval first x + eval second x := by
  induction first with
  | nil => simp
  | cons term first ih => rw [List.cons_append, eval_cons, eval_cons, ih, add_assoc]

/-- At the origin every form is zero. -/
@[simp] theorem eval_origin (form : LinearForm) : form.eval (fun _ => 0) = 0 := by
  induction form with
  | nil => rfl
  | cons term form ih => rw [eval_cons, ih, mul_zero, add_zero]

/-- What a form evaluates to depends on the variables that it names only. -/
theorem eval_congr {form : LinearForm} {x y : String → Rat}
    (same : ∀ term ∈ form, x term.1 = y term.1) : form.eval x = form.eval y := by
  induction form with
  | nil => rfl
  | cons term form ih =>
    -- The forms are equal term by term.
    obtain ⟨here, there⟩ := List.forall_mem_cons.mp same
    rw [eval_cons, eval_cons, here, ih there]

/-- A form is the combination of its coefficients with the values of the variables in order. -/
theorem eval_eq_combine {unknowns : List String} (distinct : unknowns.Nodup) {form : LinearForm}
    (known : ∀ term ∈ form, term.1 ∈ unknowns) {x : String → Rat} {y : Nat → Rat}
    (agree : ∀ place (within : place < unknowns.length), y place = x unknowns[place]) :
    form.eval x = combine (unknowns.map form.coefficient) y := by
  -- The induction is on the terms; without any, all coefficients are zero.
  induction form with
  | nil =>
    refine (combine_eq_zero fun place within => ?_).symm
    rw [List.getD_eq_getElem _ _ within]
    simp [coefficient]
  | cons term form ih =>
    -- The first term counts in the place of its variable, the others as they do without it.
    obtain ⟨place, within, found⟩ := List.mem_iff_getElem.mp (known term (by simp))
    have parts : combine (unknowns.map (coefficient (term :: form))) y =
        combine (unitList unknowns.length place term.2) y +
          combine (unknowns.map (coefficient form)) y := by
      simp only [combine, List.length_map, length_unitList, ← Finset.sum_add_distrib]
      refine Finset.sum_congr rfl fun column member => ?_
      have inside := Finset.mem_range.mp member
      rw [getD_unitList, List.getD_eq_getElem _ _ (by simpa using inside),
        List.getD_eq_getElem _ _ (by simpa using inside)]
      simp only [List.getElem_map, coefficient_cons, inside, and_true]
      -- Distinct variables have distinct places, so the term counts in one of them only.
      by_cases same : column = place
      · subst same
        rw [if_pos found.symm, if_pos rfl]
        ring
      · have different : ¬ term.1 = unknowns[column] := by
          rw [← found, List.Nodup.getElem_inj_iff distinct]
          exact fun equal => same equal.symm
        rw [if_neg different, if_neg same]
        ring
    rw [eval_cons, ih fun other member => known other (List.mem_cons_of_mem _ member), parts,
      combine_unitList within, agree place within, found]

end LinearForm

namespace LinearProgram

/-- Every variable is there once, and forms only name variables of the program. -/
structure WellFormed (program : LinearProgram) : Prop where
  distinct : program.unknowns.Nodup
  known : ∀ constraint ∈ program.constraints, ∀ term ∈ constraint.form,
    term.1 ∈ program.unknowns
  objective : ∀ term ∈ program.objective, term.1 ∈ program.unknowns

variable {program next : LinearProgram} {form : LinearForm} {name label : String}
  {relation : Relation} {bound : Rat} {x : String → Rat}

/-- The empty program is well-formed. -/
theorem wellFormed_empty : empty.WellFormed := ⟨by simp [empty], by simp [empty], by simp [empty]⟩

/-- A new variable can be added. -/
theorem addVariable_ok (new : name ∉ program.unknowns) :
    program.addVariable name = .ok { program with unknowns := program.unknowns ++ [name] } := by
  simp [addVariable, new]

/-- A new name as one more variable keeps a program well-formed. -/
theorem WellFormed.addVariable (wellFormed : program.WellFormed) (new : name ∉ program.unknowns) :
    { program with unknowns := program.unknowns ++ [name] }.WellFormed where
  distinct := by
    -- The new variable is not one of the old ones.
    simp only [List.nodup_append, List.nodup_cons, List.not_mem_nil, not_false_eq_true,
      List.nodup_nil, and_self, List.mem_singleton, true_and, wellFormed.distinct]
    rintro other member _ rfl rfl
    exact new member
  known constraint member term termMember :=
    List.mem_append_left _ (wellFormed.known constraint member term termMember)
  objective term member := List.mem_append_left _ (wellFormed.objective term member)

/-- A form over variables of the program names no unknown one. -/
theorem unknownVariable?_eq_none (known : ∀ term ∈ form, term.1 ∈ program.unknowns) :
    program.unknownVariable? form = none := by
  simp only [unknownVariable?, List.find?_eq_none, List.mem_map, forall_exists_index, and_imp]
  rintro _ term member rfl
  simpa using known term member

/-- A form over the program's variables passes the check of its names. -/
theorem requireVariables_ok (known : ∀ term ∈ form, term.1 ∈ program.unknowns) :
    program.requireVariables form label = .ok () := by
  rw [requireVariables, unknownVariable?_eq_none known]

/-- A constraint over variables of the program can be added. -/
theorem addConstraint_ok (known : ∀ term ∈ form, term.1 ∈ program.unknowns) :
    program.addConstraint form relation bound label = .ok { program with
      constraints := program.constraints ++ [⟨form.nonzero, relation, bound, label⟩] } := by
  simp [addConstraint, requireVariables_ok known, Bind.bind, Except.bind, Pure.pure, Except.pure]

/-- The program with one more constraint. -/
def withConstraint (program : LinearProgram) (form : LinearForm) (relation : Relation)
    (bound : Rat) (label : String) : LinearProgram :=
  { program with constraints := program.constraints ++ [⟨form.nonzero, relation, bound, label⟩] }

/-- One more constraint over the program's variables keeps a program well-formed. -/
theorem WellFormed.withConstraint (wellFormed : program.WellFormed)
    (known : ∀ term ∈ form, term.1 ∈ program.unknowns) :
    (program.withConstraint form relation bound label).WellFormed where
  distinct := wellFormed.distinct
  known constraint member term termMember := by
    -- The new constraint names variables of the form only, the others are as before.
    rcases List.mem_append.mp member with old | new
    · exact wellFormed.known constraint old term termMember
    · rw [List.mem_singleton.mp new] at termMember
      exact known term (List.mem_filter.mp termMember).1
  objective := wellFormed.objective

/-- One more constraint leaves those feasible points that satisfy it. -/
theorem feasible_withConstraint :
    (program.withConstraint form relation bound label).Feasible x ↔
      program.Feasible x ∧ relation.Holds (form.eval x) bound := by
  simp only [Feasible, withConstraint, List.forall_mem_append, List.forall_mem_singleton,
    Constraint.Holds, LinearForm.eval_nonzero, and_assoc]

/-- The difference of two variables evaluates to the difference of their values. -/
theorem eval_difference (later earlier : String) (x : String → Rat) :
    (difference later earlier).eval x = x later - x earlier := by
  -- The difference of a variable and itself is written without any terms.
  unfold difference
  split
  · rename_i same
    rw [same, sub_self]
    rfl
  · simp
    ring

/-- A difference names its two variables only. -/
theorem difference_known {unknowns : List String} {later earlier : String}
    (laterKnown : later ∈ unknowns) (earlierKnown : earlier ∈ unknowns) :
    ∀ term ∈ difference later earlier, term.1 ∈ unknowns := by
  unfold difference
  split <;> simp [laterKnown, earlierKnown]

/-- Feasibility is a matter of the variables of the program. -/
theorem WellFormed.feasible_congr (wellFormed : program.WellFormed) {y : String → Rat}
    (same : ∀ name ∈ program.unknowns, x name = y name) :
    program.Feasible x ↔ program.Feasible y := by
  -- Both conditions only look at variables of the program.
  refine and_congr (forall₂_congr fun name member => by rw [same name member])
    (forall₂_congr fun constraint member => ?_)
  rw [Constraint.Holds, Constraint.Holds, LinearForm.eval_congr fun term termMember =>
    same term.1 (wellFormed.known constraint member term termMember)]

/-- An objective over variables of the program can be set. -/
theorem minimize_ok (known : ∀ term ∈ form, term.1 ∈ program.unknowns) :
    program.minimize form = .ok { program with objective := form.nonzero } := by
  simp [minimize, unknownVariable?_eq_none known]

/-- An objective over the program's variables keeps a program well-formed. -/
theorem WellFormed.withObjective (wellFormed : program.WellFormed)
    (known : ∀ term ∈ form, term.1 ∈ program.unknowns) :
    { program with objective := form.nonzero }.WellFormed where
  distinct := wellFormed.distinct
  known := wellFormed.known
  objective term member := known term (List.mem_filter.mp member).1

end LinearProgram

end CycleSchedule
