import CycleSchedule.Proofs.Linear.Integrality
import CycleSchedule.Proofs.Scheduler.Propagation
import CycleSchedule.Proofs.Told

/-! The programs of a problem can always be built, their feasible points are the admissible starts,
and their corners are whole. -/

namespace CycleSchedule

/-- Two operations with one start variable are one operation. -/
theorem startVariable_inj {first second : String} :
    startVariable first = startVariable second ↔ first = second :=
  String.append_right_inj _

/-- Start variables tell operations apart. -/
theorem startVariable_injective : Function.Injective startVariable := fun _ _ =>
  startVariable_inj.mp

/-- The variable of the interval is no start variable. -/
theorem startVariable_ne_intervalVariable (name : String) :
    startVariable name ≠ intervalVariable := by
  intro same
  -- The two differ in their first letters already.
  have letters := congrArg String.toList same
  simp [startVariable, intervalVariable, String.toList_append] at letters

/-- A constraint that bears every shift of variables that are not whole, if the interval is. -/
def Constraint.KeepsWhole (constraint : Constraint) : Prop :=
  ∀ x, constraint.Holds x → Int.fract (x intervalVariable) = 0 → ∀ part : Rat, part ≠ 0 →
    constraint.Bears x (sharing x part)

/-- A bound on the interval keeps solutions whole. -/
theorem keepsWhole_interval (factor bound : Rat) (relation : Relation) (label : String)
    {form : LinearForm} (multiple : ∀ x, form.eval x = factor * x intervalVariable) :
    Constraint.KeepsWhole ⟨form.nonzero, relation, bound, label⟩ := by
  -- The interval is whole, so it is not among what is shifted.
  intro x _ whole part fractional
  left
  rw [LinearForm.eval_nonzero, multiple, sharing_eq_zero whole fractional, mul_zero]

/-- The constraint that fixes a variable is stored as one equality. -/
theorem fixes_nonzero (name label : String) (value : Int) :
    Constraint.Fixes ⟨LinearForm.nonzero [(name, 1)], .equal, value, label⟩ name value :=
  ⟨rfl, rfl, fun x => by simp [LinearForm.eval_nonzero]⟩

/-- Fixing a variable at a whole number keeps solutions whole. -/
theorem keepsWhole_fix (name label : String) (value : Int) :
    Constraint.KeepsWhole ⟨LinearForm.nonzero [(name, 1)], .equal, value, label⟩ := by
  -- A variable with a whole value is not among what is shifted either.
  intro x holds whole part fractional
  exact (Constraint.Schedules.fixed name value (fixes_nonzero name label value)).bears
    (fun _ : True => whole) holds fractional

/-- A bound on a difference keeps solutions whole, also where a multiple of the interval counts. -/
theorem keepsWhole_difference (later earlier label : String) (factor bound : Int)
    {form : LinearForm}
    (difference : ∀ x, form.eval x = x later - x earlier + factor * x intervalVariable) :
    Constraint.KeepsWhole ⟨form.nonzero, .atLeast, bound, label⟩ := by
  intro x holds whole part fractional
  -- Terms of zero change no value, so the form may be read as the difference it was made from.
  exact Constraint.bears_difference later earlier intervalVariable factor bound rfl rfl
    (fun x => (LinearForm.eval_nonzero form x).trans (difference x)) (.inr whole) holds fractional

namespace LinearProgram

/-- A program over given variables that has the given feasible points, and keeps them whole. -/
structure Describes (program : LinearProgram) (unknowns : List String)
    (points : (String → Rat) → Prop) : Prop where
  wellFormed : program.WellFormed
  unknowns : program.unknowns = unknowns
  feasible : ∀ x, program.Feasible x ↔ points x
  whole : ∀ constraint ∈ program.constraints, constraint.KeepsWhole

variable {program : LinearProgram} {unknowns : List String} {points other : (String → Rat) → Prop}
  {form : LinearForm} {relation : Relation} {bound : Rat} {label name : String}

/-- A program describes what has the same points. -/
theorem Describes.congr (describes : program.Describes unknowns points)
    (same : ∀ x, points x ↔ other x) : program.Describes unknowns other :=
  ⟨describes.wellFormed, describes.unknowns, fun x => (describes.feasible x).trans (same x),
    describes.whole⟩

/-- One more constraint must hold. -/
theorem Describes.addConstraint (describes : program.Describes unknowns points)
    (known : ∀ term ∈ form, term.1 ∈ unknowns)
    (whole : Constraint.KeepsWhole ⟨form.nonzero, relation, bound, label⟩) :
    ∃ next, program.addConstraint form relation bound label = .ok next ∧
      next.Describes unknowns fun x => points x ∧ relation.Holds (form.eval x) bound := by
  -- Terms that cancel are left out, which changes neither the variables nor the value.
  have inside : ∀ term ∈ form, term.1 ∈ program.unknowns := describes.unknowns ▸ known
  refine ⟨_, addConstraint_ok inside, describes.wellFormed.withConstraint inside,
    describes.unknowns, fun x => ?_, ?_⟩
  · rw [← describes.feasible]
    exact feasible_withConstraint
  · exact List.forall_mem_append.mpr ⟨describes.whole, List.forall_mem_singleton.mpr whole⟩

/-- Distinct new variables can be added one after the other. -/
theorem foldlM_addVariable {names : List String} (distinct : (program.unknowns ++ names).Nodup) :
    names.foldlM LinearProgram.addVariable program =
      .ok { program with unknowns := program.unknowns ++ names } := by
  -- By induction on the variables still to be added.
  induction names generalizing program with
  | nil => simp
  | cons name names ih =>
    have new : name ∉ program.unknowns := fun member =>
      (List.nodup_append.mp distinct).2.2 _ member _ (by simp) rfl
    rw [List.foldlM_cons, addVariable_ok new, ok_bind, ih (by simpa using distinct)]
    simp

/-- Items that each add a constraint add all of theirs. -/
theorem foldlM_addConstraint {α : Type} {items : List α}
    {step : LinearProgram → α → Except Fault LinearProgram} {constraint : α → Constraint}
    (each : ∀ item ∈ items, ∀ constraints, step ⟨unknowns, constraints, []⟩ item =
      .ok ⟨unknowns, constraints ++ [constraint item], []⟩) (constraints : List Constraint) :
    items.foldlM step ⟨unknowns, constraints, []⟩ =
      .ok ⟨unknowns, constraints ++ items.map constraint, []⟩ := by
  -- By induction on the items, for all constraints that are there already.
  induction items generalizing constraints with
  | nil => simp
  | cons item items ih =>
    rw [List.foldlM_cons, each item (by simp), ok_bind,
      ih fun other member => each other (List.mem_cons_of_mem _ member)]
    simp

end LinearProgram

namespace Problem

open LinearProgram

variable {problem : Problem Int}

/-- The variables of the starts, in the order of the operations. -/
def startUnknowns (problem : Problem Int) : List String :=
  problem.operationNames.map startVariable

/-- An operation's start variable is among the variables just when the operation is registered. -/
theorem mem_startUnknowns {name : String} :
    startVariable name ∈ problem.startUnknowns ↔ name ∈ problem.operationNames := by
  simp [startUnknowns, startVariable_inj]

/-- The interval is not among the start variables. -/
theorem intervalVariable_not_mem : intervalVariable ∉ problem.startUnknowns := by
  simp only [startUnknowns, List.mem_map, not_exists, not_and]
  exact fun name _ => startVariable_ne_intervalVariable name

/-- Distinct operations have distinct start variables. -/
theorem WellFormed.nodup_startUnknowns (wellFormed : problem.WellFormed) :
    problem.startUnknowns.Nodup :=
  wellFormed.operations.map startVariable_injective

/-- Every operation gets a variable. -/
theorem WellFormed.startVariables_eq (wellFormed : problem.WellFormed) :
    problem.startVariables = .ok ⟨problem.startUnknowns, [], []⟩ := by
  have unknowns : problem.operations.map (fun operation => startVariable operation.name) =
      problem.startUnknowns := by
    simp [startUnknowns, operationNames, Function.comp_def]
  -- The variables of distinct operations are distinct, so that each of them can be added.
  have added := foldlM_addVariable
    (show (LinearProgram.empty.unknowns ++ problem.startUnknowns).Nodup from
      wellFormed.nodup_startUnknowns)
  rw [← unknowns, List.foldlM_map, unknowns] at added
  exact added

/-- A program whose feasible points are the admissible starts. -/
def Formulates (problem : Problem Int) (pinned : NameTable Int) (program : LinearProgram) : Prop :=
  program.Describes problem.startUnknowns fun x =>
    problem.Admissible pinned fun name => x (startVariable name)

/-- The constraint of a dependence within one iteration: its result must be there. -/
def precedenceConstraint (problem : Problem Int) (dependence : Dependence Int) : Constraint :=
  ⟨(difference (startVariable dependence.destination)
    (startVariable dependence.source)).nonzero, .atLeast,
    problem.latencyOf dependence.source, dependence.text.spelled⟩

/-- The constraint of a dependence holds just when the destination starts no earlier than the source
ends. -/
theorem holds_precedenceConstraint {dependence : Dependence Int} {x : String → Rat} :
    (problem.precedenceConstraint dependence).Holds x ↔
      x (startVariable dependence.source) + problem.latencyOf dependence.source ≤
        x (startVariable dependence.destination) := by
  rw [Constraint.Holds, precedenceConstraint, LinearForm.eval_nonzero, eval_difference,
    Relation.Holds, le_sub_iff_add_le']

/-- The program is what comes of putting it together. -/
@[simp] theorem outcome_narratedPrecedenceProgram {ν κ : Type} [Quantity ν κ]
    (problem : Problem ν) :
    problem.narratedPrecedenceProgram.outcome = problem.precedenceProgram := rfl

/-- Labels can be told of if the distances in them can be written. -/
theorem isTellable_labels {α : Type} {narrated : Narrated α} {dependences : List (Dependence Int)}
    (labels : narrated.events = dependences.map fun dependence => .labelled dependence.text)
    (cutoff : Level) : narrated.IsTellable cutoff ↔
      ∀ dependence ∈ dependences, Text.isWritable dependence.distance = true := by
  rw [Narrated.IsTellable, labels, List.forall_mem_map]
  refine forall_congr' fun dependence => forall_congr' fun _ => ?_
  -- A label is put together whatever is shown.
  simp [Event.IsTellable, Event.isComposed, Event.isGuarded, Event.text,
    Dependence.isWritable_text]

/-- While the program is put together, the labels of the dependences are. -/
theorem events_narratedPrecedenceProgram {ν κ : Type} [Quantity ν κ] {problem : Problem ν}
    {program : LinearProgram} (built : problem.precedenceProgram = .ok program) :
    problem.narratedPrecedenceProgram.events =
      problem.dependences.map fun dependence => .labelled dependence.text := by
  unfold precedenceProgram narratedPrecedenceProgram at built
  obtain ⟨first, started, rest⟩ := bind_eq_ok_iff.mp (Narrated.outcome_bind _ _ ▸ built)
  unfold narratedPrecedenceProgram
  rw [Narrated.bind_of_ok started, Narrated.events_lift, List.nil_append]
  refine Narrated.events_foldlM _ (fun dependence _ before after step => ?_) rest
  -- Only the label is told of, after the latency has been found.
  simp only [Narrated.outcome_bind, Narrated.outcome_lift, Narrated.outcome_tell, ok_bind,
    bind_eq_ok_iff] at step
  obtain ⟨latency, found, _, known, bound, isBound, -⟩ := step
  rw [found, Narrated.lift_ok_bind, Narrated.bind_of_ok (Narrated.outcome_tell _)]
  dsimp only
  rw [known, Narrated.lift_ok_bind, isBound, Narrated.lift_ok_bind]
  rfl

/-- The program of a problem has a variable for each operation and a constraint for each
dependence. -/
theorem WellFormed.precedenceProgram_eq (wellFormed : problem.WellFormed) :
    problem.precedenceProgram = .ok ⟨problem.startUnknowns,
      problem.dependences.map problem.precedenceConstraint, []⟩ := by
  -- Labels are told of, which has no influence on the program.
  simp only [Problem.precedenceProgram, narratedPrecedenceProgram, Narrated.outcome_bind,
    Narrated.outcome_lift, Narrated.outcome_foldlM, Narrated.outcome_tell,
    wellFormed.startVariables_eq, ok_bind]
  refine foldlM_addConstraint (fun dependence member constraints => ?_) []
  -- The ends of the dependence are operations, so that they have variables and a latency.
  obtain ⟨source, destination⟩ := wellFormed.endpoints dependence member
  have known : ∀ term ∈ difference (startVariable dependence.destination)
      (startVariable dependence.source), term.1 ∈ LinearProgram.unknowns
        ⟨problem.startUnknowns, constraints, []⟩ :=
    difference_known (mem_startUnknowns.mpr destination) (mem_startUnknowns.mpr source)
  have exact_ : exactly (Quantity.ratio (problem.latencyOf dependence.source)) =
      .ok (problem.latencyOf dependence.source : Rat) := rfl
  simp only [wellFormed.latencyNamed source, ok_bind, requireVariables_ok known, exact_]
  exact addConstraint_ok known

/-- The program of a problem can be built, and its feasible points are the admissible starts. -/
theorem WellFormed.precedenceProgram (wellFormed : problem.WellFormed) :
    ∃ program, problem.precedenceProgram = .ok program ∧ problem.Formulates [] program := by
  refine ⟨_, wellFormed.precedenceProgram_eq, ⟨wellFormed.nodup_startUnknowns, ?_, by simp⟩, rfl,
    fun x => ?_, ?_⟩
  · rw [List.forall_mem_map]
    intro dependence member term inside
    obtain ⟨source, destination⟩ := wellFormed.endpoints dependence member
    exact difference_known (mem_startUnknowns.mpr destination) (mem_startUnknowns.mpr source) term
      (List.mem_filter.mp inside).1
  · -- All constraints together are what makes starts admissible.
    simp only [Feasible, List.forall_mem_map, startUnknowns, holds_precedenceConstraint]
    constructor
    · rintro ⟨nonneg, ordered⟩
      exact ⟨nonneg, ordered, fun name slot isPinned => by simp at isPinned⟩
    · exact fun admissible => ⟨admissible.nonneg, admissible.ordered⟩
  · -- The interval does not count, as if its factor were zero.
    rw [List.forall_mem_map]
    exact fun dependence _ => keepsWhole_difference (startVariable dependence.destination)
      (startVariable dependence.source) dependence.text.spelled 0
      (problem.latencyOf dependence.source) fun x => by rw [eval_difference]; simp

/-- Within one iteration the labels show no distances, and so the program is handed back. -/
theorem told_precedenceProgram (single : ∀ dependence ∈ problem.dependences,
      dependence.distance = 0) {program : LinearProgram}
    (built : problem.precedenceProgram = .ok program) (cutoff : Level) :
    (problem.narratedPrecedenceProgram.told cutoff).outcome = .ok program := by
  -- The texts on the way are the labels, and a distance of zero is not shown in them.
  refine (Narrated.endsAs_of_ok built).of_isTellable ?_
  refine (isTellable_labels (events_narratedPrecedenceProgram built) cutoff).mpr ?_
  intro dependence member
  rw [single dependence member, Text.isWritable_zero]

/-- One more pin must be kept. -/
theorem admissible_put {pinned : NameTable Int} {name : String} {slot : Int} {x : String → Rat}
    (new : name ∉ pinned.names) :
    problem.Admissible (pinned.put name slot) x ↔ problem.Admissible pinned x ∧ x name = slot := by
  constructor
  · intro admissible
    refine ⟨⟨admissible.nonneg, admissible.ordered, fun other place isPinned => ?_⟩,
      admissible.held name slot NameTable.get?_put_self⟩
    -- Operations that were pinned before have another name.
    have different : name ≠ other := fun same =>
      new (same ▸ NameTable.mem_names_of_get? isPinned)
    exact admissible.held other place (by rw [NameTable.get?_put_of_ne different, isPinned])
  · -- What is pinned is the new operation, or has been pinned before.
    rintro ⟨admissible, here⟩
    refine ⟨admissible.nonneg, admissible.ordered, fun other place isPinned => ?_⟩
    rw [NameTable.get?_put] at isPinned
    split at isPinned
    · rename_i same
      rw [← same, here, Option.some.inj isPinned]
    · exact admissible.held other place isPinned

/-- A pin fixes the variable of its operation. -/
theorem Formulates.fix {pinned : NameTable Int} {program : LinearProgram}
    (formulates : problem.Formulates pinned program) {name : String}
    (known : name ∈ problem.operationNames) (new : name ∉ pinned.names) (slot : Int)
    (label : String) : ∃ next, program.fix [(startVariable name, 1)] slot label = .ok next ∧
      problem.Formulates (pinned.put name slot) next := by
  -- A fixed form is one more constraint, which holds of the points with the start at the slot.
  obtain ⟨next, added, all⟩ := LinearProgram.Describes.addConstraint formulates
    (by simpa using mem_startUnknowns.mpr known) (keepsWhole_fix (startVariable name) label slot)
  refine ⟨next, added, all.congr fun x => ?_⟩
  rw [admissible_put new]
  simp [Relation.Holds]

end Problem

end CycleSchedule
