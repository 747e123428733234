import CycleSchedule.Proofs.Linear.Build

/-! What adding a constraint does to the feasible points of a program, and when it is refused. -/

namespace CycleSchedule

/-- A call that is refused because of its arguments. -/
def Rejects {α : Type} (outcome : Except Fault α) : Prop :=
  ∃ rejection, outcome = .error (.rejected rejection)

namespace LinearProgram

variable {program : LinearProgram} {form : LinearForm} {relation : Relation} {bound value : Rat}
  {later earlier label : String}

/-- A form that names a variable which is not one of the program. -/
def NamesUnknown (program : LinearProgram) (form : LinearForm) : Prop :=
  ∃ term ∈ form, term.1 ∉ program.unknowns

/-- A form names no unknown variable just when all its names are variables of the program. -/
theorem not_namesUnknown_iff :
    ¬program.NamesUnknown form ↔ ∀ term ∈ form, term.1 ∈ program.unknowns := by
  simp [NamesUnknown]

/-- A form with an unknown variable is refused, and the fault names such a variable. -/
theorem addConstraint_of_namesUnknown (unknown : program.NamesUnknown form) :
    ∃ name, (∃ term ∈ form, term.1 = name) ∧ name ∉ program.unknowns ∧
      program.addConstraint form relation bound label =
        .error (.rejected (.unknownVariable label name)) := by
  cases found : program.unknownVariable? form with
  | none =>
    -- The search passes over known variables only.
    exact absurd unknown (not_namesUnknown_iff.mpr (known_of_unknownVariable? found))
  | some name =>
    obtain ⟨term, member, same⟩ := List.mem_map.mp (List.mem_of_find?_eq_some found)
    have isUnknown := List.find?_some found
    refine ⟨name, ⟨term, member, same⟩, by simpa using isUnknown, ?_⟩
    rw [addConstraint, requireVariables, found]
    rfl

/-- A call that adds to a program: in one case it is refused, and in all others it leaves those
feasible points that satisfy a condition, and no others. -/
structure Narrows (program : LinearProgram) (outcome : Except Fault LinearProgram)
    (unknown : Prop) (condition : (String → Rat) → Prop) : Prop where
  rejects_iff : Rejects outcome ↔ unknown
  accepts : ¬unknown → ∃ next, outcome = .ok next ∧
    ∀ x, next.Feasible x ↔ program.Feasible x ∧ condition x

/-- What a call does is told up to equivalence. -/
theorem Narrows.congr {outcome : Except Fault LinearProgram} {unknown unknown' : Prop}
    {condition condition' : (String → Rat) → Prop}
    (narrows : program.Narrows outcome unknown condition) (same : unknown ↔ unknown')
    (alike : ∀ x, condition x ↔ condition' x) : program.Narrows outcome unknown' condition' where
  rejects_iff := narrows.rejects_iff.trans same
  -- Conditions that hold of the same points say the same of the next program.
  accepts known := by
    obtain ⟨next, accepted, points⟩ := narrows.accepts (fun is => known (same.mp is))
    exact ⟨next, accepted, fun x => (points x).trans (and_congr_right fun _ => alike x)⟩

/-- Every constraint means what it says, and is refused if it names an unknown variable. -/
theorem narrows_addConstraint :
    program.Narrows (program.addConstraint form relation bound label)
      (program.NamesUnknown form) fun x => relation.Holds (form.eval x) bound where
  rejects_iff := by
    constructor
    · -- Without an unknown variable the constraint is accepted.
      rintro ⟨rejection, refused⟩
      by_contra known
      rw [addConstraint_ok (not_namesUnknown_iff.mp known)] at refused
      cases refused
    · intro unknown
      obtain ⟨name, -, -, refused⟩ := addConstraint_of_namesUnknown unknown
      exact ⟨_, refused⟩
  accepts known :=
    ⟨program.withConstraint form relation bound label,
      addConstraint_ok (not_namesUnknown_iff.mp known), fun _ => feasible_withConstraint⟩

/-- A difference of two variables names an unknown one just if one of the two is unknown; the
difference of a variable and itself names none. -/
theorem namesUnknown_difference_iff : program.NamesUnknown (difference later earlier) ↔
    later ≠ earlier ∧ (later ∉ program.unknowns ∨ earlier ∉ program.unknowns) := by
  -- The form of a difference is empty where both names are one, and names nothing then.
  unfold NamesUnknown difference
  split
  · rename_i same
    simp [same]
  · rename_i different
    simp [different]

/-- Constraints, fixed values and differences mean what they say: each is refused just if a variable
that its form names is unknown, and otherwise leaves exactly those feasible points that satisfy it.
The form of a difference names its two variables, if they are not one and the same. -/
theorem constraints_mean_what_they_say (program : LinearProgram) :
    (∀ form relation bound label,
      program.Narrows (program.addConstraint form relation bound label)
        (program.NamesUnknown form) fun x => relation.Holds (form.eval x) bound) ∧
    (∀ form value label,
      program.Narrows (program.fix form value label)
        (program.NamesUnknown form) fun x => form.eval x = value) ∧
    ∀ later earlier bound label,
      program.Narrows (program.addDifference later earlier bound label)
        (later ≠ earlier ∧ (later ∉ program.unknowns ∨ earlier ∉ program.unknowns))
        fun x => bound ≤ x later - x earlier := by
  refine ⟨fun form relation bound label => ?_, fun form value label => ?_,
    fun later earlier bound label => ?_⟩
  · exact narrows_addConstraint
  · exact narrows_addConstraint
  · -- A difference is a constraint on its form, whose terms cancel where the names are the same.
    refine narrows_addConstraint.congr namesUnknown_difference_iff fun x => ?_
    rw [eval_difference]
    rfl

/-- The difference of a variable and itself is accepted even if no variable has that name. -/
theorem addDifference_accepts_unknown :
    "ghost" ∉ (⟨["x"], [], []⟩ : LinearProgram).unknowns ∧
      (⟨["x"], [], []⟩ : LinearProgram).addDifference "ghost" "ghost" 0 "" =
        .ok ⟨["x"], [⟨[], .atLeast, 0, ""⟩], []⟩ ∧
      ¬Rejects ((⟨["x"], [], []⟩ : LinearProgram).addDifference "ghost" "ghost" 0 "") := by
  -- The form of the difference is empty, so no variable of it is unknown.
  have accepted : (⟨["x"], [], []⟩ : LinearProgram).addDifference "ghost" "ghost" 0 "" =
      .ok ⟨["x"], [⟨[], .atLeast, 0, ""⟩], []⟩ := rfl
  refine ⟨by decide, accepted, ?_⟩
  rintro ⟨rejection, refused⟩
  cases accepted.symm.trans refused

end LinearProgram

end CycleSchedule
