import CycleSchedule.Proofs.Scheduler.Cyclic
import CycleSchedule.Proofs.Scheduler.Shared

/-! The programs that schedulers solve have whole solutions, so that start times can always be
decoded. -/

namespace CycleSchedule

open LinearProgram

namespace Problem

variable {problem : Problem Int} {program next : LinearProgram} {held : Prop}

/-- A program with a variable for the start of each operation, and otherwise with constraints as
schedulers pose them; the interval only occurs if it is held. -/
structure Poses (problem : Problem Int) (held : Prop) (program : LinearProgram) : Prop where
  wellFormed : program.WellFormed
  covers : ∀ operation ∈ problem.operations, startVariable operation.name ∈ program.unknowns
  constraints : ∀ constraint ∈ program.constraints, constraint.Schedules intervalVariable held

/-- A program that poses under one condition does so under any weaker one. -/
theorem Poses.mono {held' : Prop} (poses : problem.Poses held program) (implies : held → held') :
    problem.Poses held' program :=
  ⟨poses.wellFormed, poses.covers, fun constraint member =>
    (poses.constraints constraint member).mono implies⟩

/-- One more variable changes no constraint, so a program goes on posing the problem. -/
theorem Poses.addVariable (poses : problem.Poses held program) {name : String}
    (added : program.addVariable name = .ok next) : problem.Poses held next := by
  obtain ⟨new, rfl⟩ := addVariable_eq_ok_iff.mp added
  exact ⟨poses.wellFormed.addVariable new, fun operation member =>
    List.mem_append_left _ (poses.covers operation member), poses.constraints⟩

/-- A constraint of one of the three forms keeps a program posing the problem. -/
theorem Poses.addConstraint (poses : problem.Poses held program) {form : LinearForm}
    {relation : Relation} {bound : Rat} {label : String}
    (added : program.addConstraint form relation bound label = .ok next)
    (schedules :
      Constraint.Schedules ⟨form.nonzero, relation, bound, label⟩ intervalVariable held) :
    problem.Poses held next := by
  -- The new constraint is stored behind the old ones, without its zero terms.
  obtain ⟨known, rfl⟩ := addConstraint_eq_ok_iff.mp added
  exact ⟨poses.wellFormed.withConstraint known, poses.covers, List.forall_mem_append.mpr
    ⟨poses.constraints, List.forall_mem_singleton.mpr schedules⟩⟩

/-- Fixing a variable at a whole number is something that schedulers do. -/
theorem Poses.fix (poses : problem.Poses held program) {name label : String} {value : Int}
    (fixed : program.fix [(name, 1)] value label = .ok next) : problem.Poses held next :=
  poses.addConstraint fixed (.fixed name value (fixes_nonzero name label value))

/-- Once the interval is fixed it may occur. -/
theorem Poses.fix_interval (poses : problem.Poses True program) {label : String} {value : Int}
    (fixed : program.fix [(intervalVariable, 1)] value label = .ok next) :
    problem.Poses (next.Fixes intervalVariable) next := by
  -- The constraint that fixes the interval is the one that holds it from now on.
  refine (poses.fix fixed).mono fun _ => ?_
  rw [(addConstraint_eq_ok_iff.mp fixed).2]
  exact ⟨_, List.mem_append_right _ (List.mem_singleton_self _), value,
    fixes_nonzero intervalVariable label value⟩

/-- With the variables of operations nothing is taken away, and no constraint comes in. -/
theorem of_foldlM_startVariable {operations : List Operation} {first last : LinearProgram}
    (built : operations.foldlM (fun program operation =>
      program.addVariable (startVariable operation.name)) first = .ok last)
    (wellFormed : first.WellFormed) :
    last.WellFormed ∧ last.constraints = first.constraints ∧ first.unknowns ⊆ last.unknowns ∧
      ∀ operation ∈ operations, startVariable operation.name ∈ last.unknowns := by
  -- By induction on the operations still to be given a variable.
  induction operations generalizing first with
  | nil =>
    obtain rfl := Except.ok.inj built
    exact ⟨wellFormed, rfl, List.Subset.refl _, by simp⟩
  | cons operation operations ih =>
    rw [List.foldlM_cons] at built
    obtain ⟨_, added, rest⟩ := bind_eq_ok_iff.mp built
    obtain ⟨new, rfl⟩ := addVariable_eq_ok_iff.mp added
    obtain ⟨lastWellFormed, same, kept, covers⟩ := ih rest (wellFormed.addVariable new)
    refine ⟨lastWellFormed, same, List.Subset.trans (List.subset_append_left _ _) kept, ?_⟩
    -- The variable of this operation is the last one so far, and is kept.
    exact List.forall_mem_cons.mpr ⟨kept (List.mem_append_right _ (by simp)), covers⟩

/-- The program of start variables alone has no constraint, so it poses the problem. -/
theorem poses_of_startVariables (built : problem.startVariables = .ok program) :
    problem.Poses held program := by
  -- No constraint has come with the variables.
  obtain ⟨wellFormed, same, -, covers⟩ := of_foldlM_startVariable built wellFormed_empty
  refine ⟨wellFormed, covers, ?_⟩
  rw [same]
  simp [LinearProgram.empty]

/-- The program of a problem without distances, if it can be built, is one that schedulers pose, and
the interval does not occur in it. -/
theorem poses_of_precedenceProgram (built : problem.precedenceProgram = .ok program) :
    problem.Poses False program := by
  simp only [precedenceProgram, narratedPrecedenceProgram, Narrated.outcome_bind,
    Narrated.outcome_lift, Narrated.outcome_foldlM, Narrated.outcome_tell, ok_bind] at built
  obtain ⟨start, started, built⟩ := bind_eq_ok_iff.mp built
  refine of_foldlM_ok (fun dependence before after poses step => ?_)
    (poses_of_startVariables started) built
  -- A dependence has added its constraint only if it has a latency, which is its bound.
  obtain ⟨latency, -, step⟩ := bind_eq_ok_iff.mp step
  obtain ⟨-, -, step⟩ := bind_eq_ok_iff.mp step
  obtain ⟨bound, isBound, added⟩ := bind_eq_ok_iff.mp step
  obtain rfl : (latency : Rat) = bound := Except.ok.inj isBound
  exact poses.addConstraint added (.apart (startVariable dependence.destination)
    (startVariable dependence.source) latency rfl rfl fun x =>
      (LinearForm.eval_nonzero _ x).trans (eval_difference _ _ x))

/-- The program of a problem with distances is one that schedulers pose, once the interval is held.
-/
theorem poses_of_cyclicProgram (built : problem.cyclicProgram = .ok program) :
    problem.Poses True program := by
  simp only [cyclicProgram, narratedCyclicProgram, Narrated.outcome_bind,
    Narrated.outcome_lift, Narrated.outcome_foldlM, Narrated.outcome_tell, ok_bind] at built
  obtain ⟨start, started, built⟩ := bind_eq_ok_iff.mp built
  obtain ⟨extended, added, built⟩ := bind_eq_ok_iff.mp built
  obtain ⟨bounded, positive, built⟩ := bind_eq_ok_iff.mp built
  -- Before the dependences there is the interval, which is 1 at least.
  have poses : problem.Poses True bounded :=
    ((poses_of_startVariables started).addVariable added).addConstraint positive
      (.positive trivial rfl rfl fun x => by simp [LinearForm.eval_nonzero])
  refine of_foldlM_ok (fun dependence before after poses step => ?_) poses built
  -- Distance and latency are whole, and so are the factor and the bound that come of them.
  obtain ⟨distance, isDistance, step⟩ := bind_eq_ok_iff.mp step
  obtain ⟨latency, -, step⟩ := bind_eq_ok_iff.mp step
  obtain ⟨-, -, step⟩ := bind_eq_ok_iff.mp step
  obtain ⟨factor, isFactor, step⟩ := bind_eq_ok_iff.mp step
  obtain ⟨bound, isBound, added⟩ := bind_eq_ok_iff.mp step
  obtain rfl : (latency : Rat) = bound := Except.ok.inj isBound
  obtain rfl : (distance : Rat) = factor := Except.ok.inj isFactor
  exact poses.addConstraint added (.overlapping trivial (startVariable dependence.destination)
    (startVariable dependence.source) distance latency rfl rfl fun x =>
      (LinearForm.eval_nonzero _ x).trans (eval_cyclicForm _ _ _ x))

section Pins

open Shared

variable {setting : Setting Int} {progress final : Progress Int} {name : String}

/-- A pin fixes the start of its operation at a whole number. -/
theorem exists_fix_of_pin (pinned : (pin setting progress name).outcome = .ok final) :
    ∃ slot : Int, progress.program.fix [(startVariable name, 1)] slot ("bind " ++ name) =
      .ok final.program := by
  simp only [pin, Narrated.outcome_bind, Narrated.outcome_lift, bind_eq_ok_iff] at pinned
  obtain ⟨table, -, wanted, -, pinned⟩ := pinned
  split at pinned
  · -- Without a free window there is no pin.
    cases pinned
  · rename_i slot free
    simp only [Narrated.outcome_bind, Narrated.outcome_lift, bind_eq_ok_iff] at pinned
    obtain ⟨-, -, reserved, -, program, fixed, pinned⟩ := pinned
    refine ⟨slot, fixed.trans (congrArg Except.ok ?_)⟩
    -- Whether the pin delays its operation or not, the program is the one with the pin.
    split at pinned
    · rw [← Except.ok.inj pinned]
    · simp only [Narrated.outcome_bind, Narrated.outcome_lift, bind_eq_ok_iff] at pinned
      obtain ⟨-, -, starts, -, pinned⟩ := pinned
      rw [← Except.ok.inj pinned]

/-- However many pins there are, the program stays one that a scheduler poses. -/
theorem Poses.pinAll {fuel : Nat} {pending : List String}
    (poses : problem.Poses held progress.program)
    (pinned : (pinAll setting fuel pending progress).outcome = .ok final) :
    problem.Poses held final.program := by
  -- By induction on the fuel, one pin at a time.
  induction fuel generalizing pending progress with
  | zero =>
    obtain rfl := Except.ok.inj pinned
    exact poses
  | succ fuel ih =>
    cases pending with
    | nil =>
      obtain rfl := Except.ok.inj pinned
      exact poses
    | cons name names =>
      simp only [Shared.pinAll, Narrated.outcome_bind, bind_eq_ok_iff] at pinned
      obtain ⟨next, here, rest⟩ := pinned
      -- A pin fixes one variable, which is one of the four forms.
      obtain ⟨slot, fixed⟩ := exists_fix_of_pin here
      exact ih (poses.fix fixed) rest

end Pins

/-- What is decoded from solutions for the last operation never has a fraction. -/
def Decodes (problem : Problem Int) (program : LinearProgram) : Prop :=
  ∀ last minimizeSum solution effort,
    (problem.solveForLast last minimizeSum program).outcome = .ok (solution, effort) →
      ∃ starts, problem.decodeStarts solution.values = .ok starts

variable {solution final : Solution} {purpose : String} {objective : LinearForm}

/-- A program as schedulers pose them has whole optima. -/
theorem Poses.wholeOver (poses : problem.Poses (program.Fixes intervalVariable) program)
    (solved : (problem.solveFor program objective purpose).outcome = .ok solution)
    {reason : String} (required : problem.requireOptimal solution reason = .ok final) :
    final.WholeOver program.unknowns := by
  simp only [solveFor, Narrated.outcome_bind, Narrated.outcome_lift, outcome_narratedSolve, ok_bind,
    bind_eq_ok_iff] at solved
  obtain ⟨_, minimized, -, -, solved⟩ := solved
  -- Another objective leaves the constraints as they are.
  obtain ⟨known, rfl⟩ := minimize_eq_ok_iff.mp minimized
  split at solved
  · cases solved
  · obtain rfl := Except.ok.inj solved
    unfold requireOptimal at required
    split at required
    · rename_i optimal
      obtain rfl := Except.ok.inj required
      exact (poses.wellFormed.withObjective known).wholeOver_solve poses.constraints optimal
    · cases required

/-- Minimising the start of the last operation, and then the sum of all, gives whole values. -/
theorem Poses.wholeOver_solveForLast
    (poses : problem.Poses (program.Fixes intervalVariable) program) {last : Option String}
    {minimizeSum : Bool} {effort : Effort}
    (solved : (problem.solveForLast last minimizeSum program).outcome = .ok (solution, effort)) :
    solution.WholeOver program.unknowns := by
  unfold solveForLast at solved
  cases last with
  | none => cases solved
  | some last =>
    simp only [Narrated.outcome_bind, Narrated.outcome_lift, bind_eq_ok_iff] at solved
    obtain ⟨_, solvedFirst, first, optimal, solved⟩ := solved
    have whole := poses.wholeOver solvedFirst optimal
    cases minimizeSum with
    | false =>
      -- Without the sum the first solution is what is handed back.
      obtain ⟨rfl, -⟩ := Prod.mk.inj (Except.ok.inj solved)
      exact whole
    | true =>
      simp only [Bool.not_true, Bool.false_eq_true, if_false] at solved
      split at solved
      · cases solved
      · rename_i least found
        simp only [Narrated.outcome_bind, Narrated.outcome_lift, bind_eq_ok_iff] at solved
        obtain ⟨fixed, fixes, _, solvedAgain, second, optimalAgain, solved⟩ := solved
        obtain ⟨rfl, -⟩ := Prod.mk.inj (Except.ok.inj solved)
        -- The first solution is whole, so that the last operation is fixed at a whole start.
        have isWhole := whole.of_mem poses.wellFormed.distinct (NameTable.mem_of_get? found)
        rw [← (Rat.den_eq_one_iff least).mp isWhole] at fixes
        have again : problem.Poses (fixed.Fixes intervalVariable) fixed :=
          (poses.fix fixes).mono fun before => before.of_addConstraint fixes
        have unknowns : fixed.unknowns = program.unknowns := by
          rw [(addConstraint_eq_ok_iff.mp fixes).2]
        exact unknowns ▸ again.wholeOver solvedAgain optimalAgain

/-- Whole values for all starts can be decoded. -/
theorem exists_decodeStarts {unknowns : List String} (whole : solution.WholeOver unknowns)
    (covers : ∀ operation ∈ problem.operations, startVariable operation.name ∈ unknowns)
    (distinct : unknowns.Nodup) : ∃ starts, problem.decodeStarts solution.values = .ok starts := by
  refine ⟨_, bind_eq_ok_iff.mpr ⟨_, mapM_ok (fun operation =>
    (operation.name, (solution.assignment (startVariable operation.name)).num))
    (fun operation member => ?_), rfl⟩⟩
  -- Every value that is looked up is there, and is whole.
  have found := Solution.get?_of_mem (whole.names.symm ▸ covers operation member)
  rw [found]
  exact if_pos (whole.of_mem distinct (NameTable.mem_of_get? found))

/-- The solutions of programs as schedulers pose them can be decoded. -/
theorem Poses.decodes (poses : problem.Poses (program.Fixes intervalVariable) program) :
    problem.Decodes program := fun _ _ _ _ solved =>
  exists_decodeStarts (poses.wholeOver_solveForLast solved) poses.covers poses.wellFormed.distinct

end Problem

/-- Programs as schedulers pose them have whole optima. Where all constraints are bounds on
differences by whole numbers, in which whole multiples of one more variable may count, or fix
variables at whole numbers, and where that one variable is fixed if it occurs, every value of an
optimal solution is whole, whatever the objective. So start times are always decoded from a solution
for the last operation: of the program of a problem without distances, of that program with any
operations pinned, and of the program of a problem with distances at a whole interval. -/
theorem scheduling_solutions_whole :
    (∀ (edits : List Edit) (interval : String), (ofEdits edits).Schedules interval →
      (ofEdits edits).solve.status = .optimal →
        (ofEdits edits).solve.values.names = (ofEdits edits).unknowns ∧
          ∀ entry ∈ (ofEdits edits).solve.values, entry.2.den = 1) ∧
    ∀ problem : Problem Int,
      (∀ program, problem.precedenceProgram = .ok program →
        problem.Decodes program ∧
          ∀ (setting : Shared.Setting Int) fuel pending progress final,
            progress.program = program →
            (Shared.pinAll setting fuel pending progress).outcome = .ok final →
              problem.Decodes final.program) ∧
      ∀ program, problem.cyclicProgram = .ok program →
        ∀ (interval : Int) (label : String) fixed,
          program.fix [(intervalVariable, 1)] interval label = .ok fixed →
            problem.Decodes fixed := by
  refine ⟨fun edits interval schedules optimal => ?_, fun problem => ⟨fun program built => ?_,
    fun program built interval label fixed fixes => ?_⟩⟩
  · have wellFormed := wellFormed_ofEdits edits
    have whole := wellFormed.wholeOver_solve schedules optimal
    exact ⟨whole.names, fun entry member => whole.of_mem wellFormed.distinct member⟩
  · -- Without distances the interval does not occur.
    have poses := Problem.poses_of_precedenceProgram built
    refine ⟨(poses.mono False.elim).decodes, ?_⟩
    rintro setting fuel pending progress final rfl pinned
    exact ((poses.pinAll pinned).mono False.elim).decodes
  · exact ((Problem.poses_of_cyclicProgram built).fix_interval fixes).decodes

/-- Two starts, one of them bound, and an interval of three cycles that counts twice between them;
the objective is not whole. -/
def pipelinedEdits : List Edit :=
  [.addVariable "x", .addVariable "y", .addVariable "ii",
    .addConstraint [("ii", 1)] .atLeast 1 "ii >= 1",
    .addConstraint [("y", 1), ("x", -1), ("ii", 2)] .atLeast 9 "x -> y @ 2",
    .addDifference "x" "x" (-1) "x -> x", .fix [("x", 1)] 2 "bind x", .fix [("ii", 1)] 3 "fix ii",
    .minimize [("x", 1 / 2), ("y", 2 / 3)]]

/-- The pipelined program has constraints of the three forms only. -/
theorem schedules_pipelinedEdits : (ofEdits pipelinedEdits).Schedules "ii" := by
  -- The edits are evaluated, and each constraint is one of the four forms by its looks.
  have constraints : (ofEdits pipelinedEdits).constraints =
      [⟨[("ii", 1)], .atLeast, 1, "ii >= 1"⟩,
        ⟨[("y", 1), ("x", -1), ("ii", 2)], .atLeast, 9, "x -> y @ 2"⟩,
        ⟨[], .atLeast, -1, "x -> x"⟩, ⟨[("x", 1)], .equal, 2, "bind x"⟩,
        ⟨[("ii", 1)], .equal, 3, "fix ii"⟩] := by decide +kernel
  have fixes (name label : String) (value : Int) :
      Constraint.Fixes ⟨[(name, 1)], .equal, value, label⟩ name value :=
    ⟨rfl, rfl, fun x => by simp⟩
  have held : (ofEdits pipelinedEdits).Fixes "ii" :=
    ⟨_, by rw [constraints]; simp, 3, fixes "ii" "fix ii" 3⟩
  rw [LinearProgram.Schedules, constraints]
  -- They are taken one by one, in the order of the list.
  simp only [List.forall_mem_cons]
  refine ⟨.positive held rfl rfl (by simp), .overlapping held "y" "x" 2 9 rfl rfl fun x => ?_,
    .apart "x" "x" (-1) rfl rfl (by simp), .fixed "x" 2 (fixes "x" "bind x" 2),
    .fixed "ii" 3 (fixes "ii" "fix ii" 3), by simp⟩
  simp
  ring

/-- The pipelined program is solved in whole numbers, and so are the programs of the sum of products
and of the accumulator, which decode without a remainder. -/
theorem pipelined_solutions_whole :
    ((ofEdits pipelinedEdits).solve.status = .optimal ∧
        ∀ entry ∈ (ofEdits pipelinedEdits).solve.values, entry.2.den = 1) ∧
      (∃ program final solution effort starts,
        Problem.sumOfProducts.precedenceProgram = .ok program ∧
        (Shared.pinAll ⟨Problem.sumOfProducts, Problem.sumOfProducts.graph true, ["x", "y", "sum"]⟩
          2 ["x", "y"] ⟨[("x", 0), ("y", 0), ("sum", 2)], [], [], program, 0⟩).outcome =
            .ok final ∧
        (Problem.sumOfProducts.solveForLast (some "sum") true final.program).outcome =
          .ok (solution, effort) ∧
        Problem.sumOfProducts.decodeStarts solution.values = .ok starts) ∧
      ∃ program fixed solution effort starts,
        Problem.accumulator.cyclicProgram = .ok program ∧
        program.fix [(intervalVariable, 1)] (2 : Int) "fix ii" = .ok fixed ∧
        (Problem.accumulator.solveForLast (some "back") true fixed).outcome =
          .ok (solution, effort) ∧
        Problem.accumulator.decodeStarts solution.values = .ok starts := by
  have optimal : (ofEdits pipelinedEdits).solve.status = .optimal := by decide +kernel
  -- What has been evaluated to a success has a value.
  have succeeds {α : Type} {outcome : Except Fault α} (ok : outcome.isOk = true) :
      ∃ a, outcome = .ok a := by
    cases outcome with
    | ok a => exact ⟨a, rfl⟩
    | error fault => simp [Except.isOk, Except.toBool] at ok
  refine ⟨⟨optimal, (scheduling_solutions_whole.1 _ "ii" schedules_pipelinedEdits optimal).2⟩,
    ?_, ?_⟩
  · -- The second product is pushed back, and the sum with it.
    have pinned : ((do
        let program ← Problem.sumOfProducts.precedenceProgram
        let final ← (Shared.pinAll
          ⟨Problem.sumOfProducts, Problem.sumOfProducts.graph true, ["x", "y", "sum"]⟩ 2 ["x", "y"]
          ⟨[("x", 0), ("y", 0), ("sum", 2)], [], [], program, 0⟩).outcome
        (Problem.sumOfProducts.solveForLast (some "sum") true final.program).outcome) :
          Except Fault (Solution × Effort)).isOk = true := by decide +kernel
    obtain ⟨⟨solution, effort⟩, done⟩ := succeeds pinned
    obtain ⟨program, built, done⟩ := bind_eq_ok_iff.mp done
    obtain ⟨final, pins, solved⟩ := bind_eq_ok_iff.mp done
    obtain ⟨starts, decoded⟩ := ((scheduling_solutions_whole.2 _).1 program built).2 _ _ _ _ final
      rfl pins _ _ solution effort solved
    exact ⟨program, final, solution, effort, starts, built, pins, solved, decoded⟩
  · -- The interval is fixed at the least one that does.
    have fixed : ((do
        let program ← Problem.accumulator.cyclicProgram
        let fixed ← program.fix [(intervalVariable, 1)] (2 : Int) "fix ii"
        (Problem.accumulator.solveForLast (some "back") true fixed).outcome) :
          Except Fault (Solution × Effort)).isOk = true := by decide +kernel
    obtain ⟨⟨solution, effort⟩, done⟩ := succeeds fixed
    obtain ⟨program, built, done⟩ := bind_eq_ok_iff.mp done
    obtain ⟨fixed, fixes, solved⟩ := bind_eq_ok_iff.mp done
    obtain ⟨starts, decoded⟩ := (scheduling_solutions_whole.2 _).2 program built 2 "fix ii" fixed
      fixes _ _ solution effort solved
    exact ⟨program, fixed, solution, effort, starts, built, fixes, solved, decoded⟩

end CycleSchedule
