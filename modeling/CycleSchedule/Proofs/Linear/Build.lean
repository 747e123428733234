import CycleSchedule.Proofs.Linear.Program

/-! Programs that are built edit by edit are well formed, also where edits have been refused. -/

namespace CycleSchedule

/-- What can be asked of a program while it is built. -/
inductive Edit where
  | addVariable (name : String)
  | addConstraint (form : LinearForm) (relation : Relation) (bound : Rat) (label : String)
  | addDifference (later earlier : String) (bound : Rat) (label : String)
  | fix (form : LinearForm) (value : Rat) (label : String)
  | minimize (objective : LinearForm)
deriving DecidableEq, Repr

namespace LinearProgram

variable {program next : LinearProgram} {form : LinearForm} {relation : Relation} {bound : Rat}
  {label : String}

/-- The program after an edit, or the fault for which the edit is refused. -/
def edit (program : LinearProgram) : Edit → Except Fault LinearProgram
  | .addVariable name => program.addVariable name
  | .addConstraint form relation bound label => program.addConstraint form relation bound label
  | .addDifference later earlier bound label => program.addDifference later earlier bound label
  | .fix form value label => program.fix form value label
  | .minimize objective => program.minimize objective

/-- The program after an edit; one that is refused leaves the program as it was. -/
def edited (program : LinearProgram) (edit : Edit) : LinearProgram :=
  match program.edit edit with
  | .ok next => next
  | .error _ => program

/-- The program that edits make of the one without variables. -/
def ofEdits (edits : List Edit) : LinearProgram := edits.foldl edited .empty

/-- In a form without unknown variables all variables are known. -/
theorem known_of_unknownVariable? (nothing : program.unknownVariable? form = none) :
    ∀ term ∈ form, term.1 ∈ program.unknowns := by
  -- The search for an unknown variable has passed over the one of the term.
  intro term member
  have passed := List.find?_eq_none.mp nothing term.1 (List.mem_map_of_mem member)
  simpa using passed

/-- A variable is accepted just if it is new. -/
theorem addVariable_eq_ok_iff {name : String} : program.addVariable name = .ok next ↔
    name ∉ program.unknowns ∧ next = { program with unknowns := program.unknowns ++ [name] } := by
  by_cases known : name ∈ program.unknowns
  · -- A repeated name is refused.
    simp [LinearProgram.addVariable, known]
  · rw [addVariable_ok known, Except.ok.injEq, eq_comm]
    exact (and_iff_right known).symm

/-- A constraint is accepted just if its variables are known; it then comes last. -/
theorem addConstraint_eq_ok_iff : program.addConstraint form relation bound label = .ok next ↔
    (∀ term ∈ form, term.1 ∈ program.unknowns) ∧ next = { program with
      constraints := program.constraints ++ [⟨form.nonzero, relation, bound, label⟩] } := by
  constructor
  · intro added
    cases unknown : program.unknownVariable? form with
    | some name =>
      -- An unknown variable would have been reported.
      simp [addConstraint, requireVariables, unknown, Bind.bind, Except.bind] at added
    | none =>
      have known := known_of_unknownVariable? unknown
      exact ⟨known, Except.ok.inj (added.symm.trans (addConstraint_ok known))⟩
  · rintro ⟨known, rfl⟩
    exact addConstraint_ok known

/-- An objective is accepted just if its variables are known. -/
theorem minimize_eq_ok_iff : program.minimize form = .ok next ↔
    (∀ term ∈ form, term.1 ∈ program.unknowns) ∧
      next = { program with objective := form.nonzero } := by
  constructor
  · intro minimized
    -- An objective that is accepted names no unknown variable.
    cases unknown : program.unknownVariable? form with
    | some name => simp [minimize, unknown] at minimized
    | none =>
      have known := known_of_unknownVariable? unknown
      exact ⟨known, Except.ok.inj (minimized.symm.trans (minimize_ok known))⟩
  · rintro ⟨known, rfl⟩
    exact minimize_ok known

/-- A variable that is accepted keeps a program well-formed. -/
theorem WellFormed.of_addVariable (wellFormed : program.WellFormed) {name : String}
    (added : program.addVariable name = .ok next) : next.WellFormed := by
  obtain ⟨new, rfl⟩ := addVariable_eq_ok_iff.mp added
  exact wellFormed.addVariable new

/-- A constraint that is accepted keeps a program well-formed. -/
theorem WellFormed.of_addConstraint (wellFormed : program.WellFormed)
    (added : program.addConstraint form relation bound label = .ok next) : next.WellFormed := by
  obtain ⟨known, rfl⟩ := addConstraint_eq_ok_iff.mp added
  exact wellFormed.withConstraint known

/-- An objective that is accepted keeps a program well-formed. -/
theorem WellFormed.of_minimize (wellFormed : program.WellFormed)
    (minimized : program.minimize form = .ok next) : next.WellFormed := by
  obtain ⟨known, rfl⟩ := minimize_eq_ok_iff.mp minimized
  exact wellFormed.withObjective known

/-- An edit that is accepted keeps the program well formed. -/
theorem WellFormed.edit (wellFormed : program.WellFormed) {edit : Edit}
    (accepted : program.edit edit = .ok next) : next.WellFormed := by
  cases edit with
  | addVariable name => exact wellFormed.of_addVariable accepted
  | addConstraint form relation bound label => exact wellFormed.of_addConstraint accepted
  -- Differences and fixed values are constraints of a certain form.
  | addDifference later earlier bound label => exact wellFormed.of_addConstraint accepted
  | fix form value label => exact wellFormed.of_addConstraint accepted
  | minimize objective => exact wellFormed.of_minimize accepted

/-- An edit keeps the program well formed, whether it is accepted or not. -/
theorem WellFormed.edited (wellFormed : program.WellFormed) (edit : Edit) :
    (program.edited edit).WellFormed := by
  -- A refused edit leaves the program as it is.
  unfold LinearProgram.edited
  cases answer : program.edit edit with
  | ok next => exact wellFormed.edit answer
  | error fault => exact wellFormed

/-- A constraint is refused for a variable that is unknown. -/
theorem exists_rejection_of_addConstraint {fault : Fault}
    (refused : program.addConstraint form relation bound label = .error fault) :
    ∃ rejection, fault = .rejected rejection ∧ rejection.message.isWritable = true := by
  -- The only way to refuse a constraint is by a name, and names can always be written.
  cases unknown : program.unknownVariable? form with
  | none =>
    rw [addConstraint_ok (known_of_unknownVariable? unknown)] at refused
    cases refused
  | some name =>
    rw [addConstraint, requireVariables, unknown] at refused
    cases refused
    exact ⟨_, rfl, rfl⟩

/-- An edit is refused for what it asks, if it is refused at all, and in words. -/
theorem exists_rejection {edit : Edit} {fault : Fault}
    (refused : program.edit edit = .error fault) :
    ∃ rejection, fault = .rejected rejection ∧ rejection.message.isWritable = true := by
  -- Four of the five edits are refused for an unknown name, and the first for a known one.
  cases edit with
  | addVariable name =>
    simp only [LinearProgram.edit, LinearProgram.addVariable] at refused
    split at refused
    · -- A name that is known already is what is refused.
      cases refused
      exact ⟨_, rfl, rfl⟩
    · cases refused
  | addConstraint form relation bound label => exact exists_rejection_of_addConstraint refused
  | addDifference later earlier bound label => exact exists_rejection_of_addConstraint refused
  | fix form value label => exact exists_rejection_of_addConstraint refused
  | minimize objective =>
    simp only [LinearProgram.edit, LinearProgram.minimize] at refused
    -- A variable of the objective that is unknown is what is refused.
    split at refused
    · cases refused
      exact ⟨_, rfl, rfl⟩
    · cases refused

/-- A well-formed program whose forms have no term that contributes nothing. -/
structure Tidy (program : LinearProgram) : Prop extends program.WellFormed where
  nonzero : ∀ constraint ∈ program.constraints, ∀ term ∈ constraint.form, term.2 ≠ 0
  objectiveNonzero : ∀ term ∈ program.objective, term.2 ≠ 0

/-- A form without its zero terms has no coefficient 0. -/
theorem ne_zero_of_mem_nonzero {term : String × Rat} (member : term ∈ form.nonzero) :
    term.2 ≠ 0 := by
  simpa using (List.mem_filter.mp member).2

/-- A program without constraints is tidy. -/
theorem tidy_empty : empty.Tidy :=
  ⟨wellFormed_empty, fun _ member => absurd member List.not_mem_nil,
    fun _ member => absurd member List.not_mem_nil⟩

/-- A constraint is stored without its zero terms, so a tidy program stays tidy. -/
theorem Tidy.of_addConstraint (tidy : program.Tidy)
    (added : program.addConstraint form relation bound label = .ok next) : next.Tidy := by
  refine ⟨tidy.toWellFormed.of_addConstraint added, ?_, ?_⟩ <;>
    obtain ⟨-, rfl⟩ := addConstraint_eq_ok_iff.mp added
  · -- A new constraint is kept without the terms that are zero.
    intro constraint member term inForm
    rcases List.mem_append.mp member with old | new
    · exact tidy.nonzero constraint old term inForm
    · obtain rfl := List.mem_singleton.mp new
      exact ne_zero_of_mem_nonzero inForm
  · exact tidy.objectiveNonzero

/-- An edit that is accepted keeps the program tidy. -/
theorem Tidy.edit (tidy : program.Tidy) {edit : Edit} (accepted : program.edit edit = .ok next) :
    next.Tidy := by
  -- Constraints and objectives are stored without their zero terms, whichever edit stores them.
  cases edit with
  | addVariable name =>
    -- A new variable touches neither the constraints nor the objective.
    refine ⟨tidy.toWellFormed.of_addVariable accepted, ?_, ?_⟩ <;>
      obtain ⟨-, rfl⟩ := addVariable_eq_ok_iff.mp accepted
    · exact tidy.nonzero
    · exact tidy.objectiveNonzero
  | addConstraint form relation bound label => exact tidy.of_addConstraint accepted
  | addDifference later earlier bound label => exact tidy.of_addConstraint accepted
  | fix form value label => exact tidy.of_addConstraint accepted
  | minimize objective =>
    -- The constraints stay, and the objective loses its zero terms.
    refine ⟨tidy.toWellFormed.of_minimize accepted, ?_, ?_⟩ <;>
      obtain ⟨-, rfl⟩ := minimize_eq_ok_iff.mp accepted
    · exact tidy.nonzero
    · exact fun term member => ne_zero_of_mem_nonzero member

/-- Whatever the edits are, the program that they make is well formed. -/
theorem wellFormed_ofEdits (edits : List Edit) : (ofEdits edits).WellFormed := by
  -- The induction is on the edits, for every well-formed program that they may start from.
  suffices general : ∀ program : LinearProgram, program.WellFormed →
      (edits.foldl LinearProgram.edited program).WellFormed from general .empty wellFormed_empty
  induction edits with
  | nil =>
    intro program wellFormed
    exact wellFormed
  | cons edit edits ih =>
    intro program wellFormed
    exact ih (program.edited edit) (wellFormed.edited edit)

end LinearProgram

end CycleSchedule
