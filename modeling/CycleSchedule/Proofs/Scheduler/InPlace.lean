import CycleSchedule.Proofs.Linear.Sharing
import CycleSchedule.Proofs.Scheduler.Lexicographic
import CycleSchedule.Proofs.Told

/-! Two objectives, one after the other, on a copy of a program that is changed in place. It comes
to what the same steps come to on programs as values, and the program it was given stays as it was.
-/

namespace CycleSchedule

open LinearProgram

namespace Store

variable {α β ν : Type}

/-- Puts the texts of events together where messages from a level on are shown. -/
def tell (cutoff : Level) (events : List Event) : Work Unit :=
  match (tellAll cutoff events).outcome with
  | .ok () => return ()
  | .error fault => throw (.refused fault)

/-- What has an outcome of its own, and does nothing to the store. -/
def settle (outcome : Except Fault α) : Work α :=
  match reported outcome with
  | .ok a => return a
  | .error fault => throw (.refused fault)

/-- A program as it stands. -/
def current (number : Nat) : Work LinearProgram := fun store =>
  match store.program? number with
  | some program => .ok program store
  | none => .error (.slipped (.missingPlace number)) store

/-- Minimises an objective over a program, which takes it over in place. -/
def solveFor (cutoff : Level) (problem : Problem ν) (number : Nat) (objective : LinearForm)
    (purpose : String) : Work Solution := do
  minimize number objective
  let program ← current number
  tell cutoff [.solving purpose program.unknowns.length program.constraints.length]
  -- The store stays as it is while a program is solved, so all steps may be told at once.
  tell cutoff program.narratedSolution.2
  let solution ← solve number
  if solution.status = .unbounded then
    settle (.error (.unboundedProgram purpose problem.name))
  else return solution

/-- Fixes the start of the last operation in place and minimises the sum of all starts. -/
def breakTie (cutoff : Level) (problem : Problem ν) (last : String) (number : Nat)
    (first : Solution) (least : Rat) : Work (Solution × Effort) := do
  edit number (.fix [(startVariable last, 1)] least ("fix " ++ startVariable last))
  let solved ← solveFor cutoff problem number problem.startObjective "sum of start times"
  let second ← settle (problem.requireOptimal solved "tie-break")
  return (second, (Problem.effortOf first).plus (Problem.effortOf second))

/-- Minimises the start of the last operation over a program in place and, with that start fixed,
the sum of all starts. -/
def solveInPlace (cutoff : Level) (problem : Problem ν) (last : String) (minimizeSum : Bool)
    (number : Nat) : Work (Solution × Effort) := do
  let solved ← solveFor cutoff problem number [(startVariable last, 1)] ("start time of " ++ last)
  let first ← settle (problem.requireOptimal solved "last operation")
  if !minimizeSum then return (first, Problem.effortOf first)
  -- The least start is read off the solution before the program is changed again.
  match first.values.get? (startVariable last) with
  | none => settle (.error (.missingName (startVariable last)))
  | some least => breakTie cutoff problem last number first least

/-- The same on a copy of a program. -/
def solveForLast (cutoff : Level) (problem : Problem ν) (last : String) (minimizeSum : Bool)
    (number : Nat) : Work (Solution × Effort) := do
  let store ← get
  copy number
  -- A copy is kept behind all programs that there are.
  solveInPlace cutoff problem last minimizeSum store.programs.length

/-- How work that leaves a store behind ends. -/
def ending (after : Store) : Except Fault α → EStateM.Result Trouble Store α
  | .ok a => .ok a after
  | .error fault => .error (.refused fault) after

/-- Nothing but one program is new or changed. -/
structure Beside (store after : Store) (own : Nat) : Prop where
  sound : after.Sound
  count : after.programs.length = store.programs.length
  others : ∀ other ≠ own, after.program? other = store.program? other

/-- Work on one program that comes to an outcome, whatever the program is like then as long as it is
of some kind; no other program is touched. -/
inductive Comes (store : Store) (own : Nat) (kind : LinearProgram → Prop) (work : Work α) :
    Except Fault α → Prop
  | ok (after : Store) {a : α} {program : LinearProgram} (done : work store = .ok a after)
      (beside : Beside store after own) (found : after.program? own = some program)
      (isKind : kind program) : Comes store own kind work (.ok a)
  | error (after : Store) {fault : Fault} (failed : work store = .error (.refused fault) after)
      (beside : Beside store after own) : Comes store own kind work (.error fault)

variable {store after : Store} {own : Nat} {kind other : LinearProgram → Prop}
  {program : LinearProgram} {work : Work α} {outcome : Except Fault α}

/-- A program that is there can be read. -/
theorem current_ok (found : store.program? own = some program) :
    current own store = .ok program store := by
  rw [current, found]

/-- A sound store is beside itself. -/
theorem Sound.beside (sound : store.Sound) (own : Nat) : Beside store store own :=
  ⟨sound, rfl, fun _ _ => rfl⟩

/-- What is left alone twice is left alone. -/
theorem Beside.trans {final : Store} (first : Beside store after own)
    (second : Beside after final own) : Beside store final own where
  sound := second.sound
  count := second.count.trans first.count
  others another different :=
    (second.others another different).trans (first.others another different)

/-- A program that is of some kind may be said to be of another one. -/
theorem Comes.mono (comes : Comes store own kind work outcome)
    (implies : ∀ program, kind program → other program) : Comes store own other work outcome := by
  cases comes with
  | ok after done beside found isKind => exact .ok after done beside found (implies _ isKind)
  | error after failed beside => exact .error after failed beside

/-- What work comes to after something else has been done to the program. -/
theorem Comes.following {first : Work β} {b : β} {next : β → Work α}
    (done : first store = .ok b after) (beside : Beside store after own)
    (second : Comes after own kind (next b) outcome) :
    Comes store own kind (first >>= next) outcome := by
  -- What the second part leaves alone is left alone by both, since the first part has left it
  -- alone.
  cases second with
  | ok final doneThen besideThen found isKind =>
    exact .ok final ((bind_of_ok done _).trans doneThen) (beside.trans besideThen) found isKind
  | error final failed besideThen =>
    exact .error final ((bind_of_ok done _).trans failed) (beside.trans besideThen)

/-- Joined work comes to the joined outcomes. -/
theorem Comes.bind {next : α → Work β} {rest : α → Except Fault β}
    (first : Comes store own kind work outcome)
    (then_ : ∀ a after program, after.Sound → after.program? own = some program → kind program →
      Comes after own other (next a) (rest a)) :
    Comes store own other (work >>= next) (outcome >>= rest) := by
  -- The second part starts in the store that the first has left, from the program that is there
  -- now.
  cases first with
  | error after failed beside => exact .error after (bind_of_error failed _) beside
  | ok after done beside found isKind =>
    exact .following done beside (then_ _ after _ beside.sound found isKind)

/-- Where its objective is accepted, minimising it tells what is solved and how, and then has the
solution unless that is unbounded. -/
theorem outcome_told_solveFor {problem : Problem ν} {program next : LinearProgram}
    {objective : LinearForm} {purpose : String} {cutoff : Level}
    (accepted : program.minimize objective = .ok next) :
    ((problem.solveFor program objective purpose).told cutoff).outcome =
      ((Narrated.tell [.solving purpose next.unknowns.length next.constraints.length]).told
        cutoff).outcome >>= fun _ =>
      ((Narrated.tell next.narratedSolution.2).told cutoff).outcome >>= fun _ =>
      if next.solve.status = .unbounded then
        reported (.error (.unboundedProgram purpose problem.name))
      else .ok next.solve := by
  -- The solving of a program is its events and then its solution, which cannot fail to be there.
  have solved : next.narratedSolve =
      Narrated.tell next.narratedSolution.2 >>= fun _ => pure next.solve := by
    show _ = Narrated.mk (next.narratedSolution.2 ++ []) (.ok next.solve)
    rw [List.append_nil]
    rfl
  rw [Problem.solveFor, Narrated.outcome_told_bind, Narrated.outcome_told_lift, accepted,
    reported_ok, ok_bind, Narrated.outcome_told_bind, solved]
  -- Both sides have told of the size by now; what is left are the messages of the solver.
  refine congrArg _ (funext fun _ => ?_)
  rw [Narrated.outcome_told_bind, Narrated.outcome_told_bind]
  cases ((Narrated.tell next.narratedSolution.2).told cutoff).outcome with
  | error fault => rfl
  | ok _ =>
    rw [ok_bind, Narrated.told_pure, ok_bind, ok_bind]
    split <;> rfl

/-- Whatever its objective is, a program takes the same constraints. -/
theorem addConstraint_withObjective (program : LinearProgram) (form objective : LinearForm)
    (relation : Relation) (bound : Rat) (label : String) :
    ({ program with objective := objective }).addConstraint form relation bound label =
      (program.addConstraint form relation bound label).map fun next =>
        { next with objective := objective } := by
  -- Another objective leaves the variables as they are, and only these are asked for.
  have unknown : ({ program with objective := objective } : LinearProgram).unknownVariable? form =
      program.unknownVariable? form := rfl
  rw [LinearProgram.addConstraint, LinearProgram.addConstraint, LinearProgram.requireVariables,
    LinearProgram.requireVariables, unknown]
  cases program.unknownVariable? form <;> rfl

section Steps

variable (sound : store.Sound) (found : store.program? own = some program)

include sound found

/-- Returning a result does nothing. -/
theorem comes_pure (a : α) :
    Comes store own (· = program) (pure a : Work α) (.ok a) :=
  .ok store rfl (sound.beside own) found rfl

/-- An outcome is met with its message. -/
theorem comes_settle (outcome : Except Fault α) :
    Comes store own (· = program) (settle outcome) (reported outcome) := by
  unfold settle
  -- Neither outcome touches the store.
  cases reported outcome with
  | ok a => exact comes_pure sound found a
  | error fault => exact .error store rfl (sound.beside own)

/-- Events are told up to the first text that cannot be written. -/
theorem comes_tell (cutoff : Level) (events : List Event) :
    Comes store own (· = program) (tell cutoff events)
      ((Narrated.tell events).told cutoff).outcome := by
  -- Telling alone has no outcome but that of its texts.
  have ends : ((Narrated.tell events).told cutoff).outcome = (tellAll cutoff events).outcome := by
    rw [Narrated.told, Told.andThen, Narrated.tell]
    cases (tellAll cutoff events).outcome <;> rfl
  rw [ends, tell]
  cases (tellAll cutoff events).outcome with
  | ok _ => exact comes_pure sound found ()
  | error fault => exact .error store rfl (sound.beside own)

/-- An edit makes of the program what it makes of it by itself. -/
theorem comes_edit (asked : Edit) :
    Comes store own (program.edit asked = .ok ·) (edit own asked)
      (reported ((program.edit asked).map fun _ => ())) := by
  have carried := carries_edit sound found asked
  cases edited : program.edit asked with
  | ok result =>
    -- An accepted edit changes the program that it is made to, and no other.
    rw [edited] at carried
    cases carried with
    | ok after done soundAfter count changes =>
      exact .ok after done ⟨soundAfter, count, changes.others⟩ changes.changed rfl
  | error fault =>
    rw [edited] at carried
    cases carried with
    | error refused =>
      -- What an edit is refused for has no number in it.
      obtain ⟨rejection, rfl, writable⟩ := exists_rejection edited
      have said : (Fault.rejected rejection).reported = .rejected rejection :=
        Fault.reported_of_isWritable writable
      show Comes store own _ _ (.error (Fault.rejected rejection).reported)
      rw [said]
      exact .error store refused (sound.beside own)

/-- A program that is minimised in place is solved as it is by itself, and changed in its objective
alone. -/
theorem comes_solveFor (cutoff : Level) (problem : Problem ν) (tidy : program.Tidy)
    (objective : LinearForm) (purpose : String) :
    Comes store own
      (fun next => next.Tidy ∧ ∃ objective, next = { program with objective := objective })
      (solveFor cutoff problem own objective purpose)
      ((problem.solveFor program objective purpose).told cutoff).outcome := by
  have edited := comes_edit sound found (.minimize objective)
  rw [solveFor]
  rw [show program.edit (.minimize objective) = program.minimize objective from rfl] at edited
  cases accepted : program.minimize objective with
  | error fault =>
    -- A refused objective ends both before anything is solved.
    rw [accepted] at edited
    cases edited with
    | error after failed beside =>
      rw [Problem.solveFor, Narrated.outcome_told_bind, Narrated.outcome_told_lift, accepted]
      exact .error after (bind_of_error failed _) beside
  | ok next =>
    rw [accepted] at edited
    have tidyNext : next.Tidy :=
      tidy.edit (show program.edit (.minimize objective) = _ from accepted)
    have same : ∃ objective, next = { program with objective := objective } :=
      ⟨_, (minimize_eq_ok_iff.mp accepted).2⟩
    cases edited with
    | ok after done beside foundNext isNext =>
      obtain rfl := Except.ok.inj isNext
      rw [outcome_told_solveFor accepted]
      refine .following done beside (.following (current_ok foundNext) (beside.sound.beside own) ?_)
      -- From here on the program with the objective is the one that is solved.
      refine (comes_tell beside.sound foundNext cutoff _).bind ?_
      rintro _ later _ soundLater foundLater rfl
      refine (comes_tell soundLater foundLater cutoff _).bind ?_
      rintro _ last _ soundLast foundLast rfl
      refine .following (solve_ok foundLast tidyNext.toWellFormed) (soundLast.beside own) ?_
      split
      · -- An unbounded program is refused, and any other solution handed on.
        exact (comes_settle soundLast foundLast _).mono fun _ same_ => same_ ▸ ⟨tidyNext, same⟩
      · exact (comes_pure soundLast foundLast _).mono fun _ same_ => same_ ▸ ⟨tidyNext, same⟩

/-- The second objective comes to what it comes to on programs as values, whatever the first one was
that is still there. -/
theorem comes_breakTie (cutoff : Level) (problem : Problem ν) (tidy : program.Tidy)
    {objective : LinearForm} {before : LinearProgram}
    (same : program = { before with objective := objective }) (last : String) (first : Solution)
    (least : Rat) :
    Comes store own (fun _ => True) (breakTie cutoff problem last own first least)
      (reported (before.fix [(startVariable last, 1)] least ("fix " ++ startVariable last)) >>=
        fun fixed =>
          ((problem.solveFor fixed problem.startObjective "sum of start times").told
            cutoff).outcome >>= fun solved =>
          reported (problem.requireOptimal solved "tie-break") >>= fun second =>
          .ok (second, (Problem.effortOf first).plus (Problem.effortOf second))) := by
  subst same
  have edited := comes_edit sound found
    (.fix [(startVariable last, 1)] least ("fix " ++ startVariable last))
  -- The objective that is still there does not matter to the constraint.
  have asked : ({ before with objective := objective } : LinearProgram).edit
      (.fix [(startVariable last, 1)] least ("fix " ++ startVariable last)) =
        (before.fix [(startVariable last, 1)] least ("fix " ++ startVariable last)).map
          fun fixed => { fixed with objective := objective } :=
    addConstraint_withObjective before ..
  rw [breakTie]
  cases accepted : before.fix [(startVariable last, 1)] least
      ("fix " ++ startVariable last) with
  | error fault =>
    rw [asked, accepted] at edited
    cases edited with
    | error after failed beside => exact .error after (bind_of_error failed _) beside
  | ok fixed =>
    rw [accepted] at asked
    -- From here on the last start is held where it is.
    have tidyFixed := tidy.edit asked
    rw [asked] at edited
    cases edited with
    | ok after done beside foundFixed isFixed =>
      obtain rfl := Except.ok.inj isFixed
      refine .following done beside ?_
      -- The objective that is left over makes no difference to the next one.
      refine (comes_solveFor beside.sound foundFixed cutoff problem tidyFixed
        problem.startObjective "sum of start times").bind ?_
      rintro solved later final soundLater foundLater -
      refine (comes_settle soundLater foundLater _).bind ?_
      rintro second end_ _ soundEnd foundEnd rfl
      exact (comes_pure soundEnd foundEnd _).mono fun _ _ => trivial

/-- Both objectives, one after the other, come to what they come to on programs as values. -/
theorem comes_solveInPlace (cutoff : Level) (problem : Problem ν) (tidy : program.Tidy)
    (last : String) (minimizeSum : Bool) :
    Comes store own (fun _ => True) (solveInPlace cutoff problem last minimizeSum own)
      ((problem.solveForLast (some last) minimizeSum program).told cutoff).outcome := by
  rw [solveInPlace, Problem.solveForLast]
  simp only [Narrated.outcome_told_bind, Narrated.outcome_told_lift]
  -- Both descriptions are gone through side by side, one step after the other.
  refine (comes_solveFor sound found cutoff problem tidy _ _).bind ?_
  rintro solved after next soundAfter foundAfter ⟨tidyNext, objective, same⟩
  refine (comes_settle soundAfter foundAfter _).bind ?_
  rintro first later _ soundLater foundLater rfl
  -- Without the second objective the first solution is the result.
  cases minimizeSum with
  | false => exact (comes_pure soundLater foundLater _).mono fun _ _ => trivial
  | true =>
    simp only [Bool.not_true, Bool.false_eq_true, if_false]
    cases first.values.get? (startVariable last) with
    | none => exact (comes_settle soundLater foundLater _).mono fun _ _ => trivial
    | some least =>
      simp only [Narrated.outcome_told_bind, Narrated.outcome_told_lift]
      exact comes_breakTie soundLater foundLater cutoff problem tidyNext same last first least

/-- On a copy of a program both objectives come to what they come to on programs as values, and none
of the programs that there were is changed. -/
theorem exists_solveForLast (cutoff : Level) (problem : Problem ν) (tidy : program.Tidy)
    (last : String) (minimizeSum : Bool) :
    ∃ after, solveForLast cutoff problem last minimizeSum own store =
        ending after
          ((problem.solveForLast (some last) minimizeSum program).told cutoff).outcome ∧
      ∀ other < store.programs.length, after.program? other = store.program? other := by
  -- The copy becomes the last program of the store, and the others stay.
  obtain ⟨copied, done, soundCopied, _, changes⟩ := copy_ok sound found
  have read : (get : Work Store) store = .ok store store := rfl
  have run : solveForLast cutoff problem last minimizeSum own store =
      solveInPlace cutoff problem last minimizeSum store.programs.length copied := by
    rw [solveForLast, bind_of_ok read, bind_of_ok done]
  have comes := comes_solveInPlace soundCopied changes.changed cutoff problem tidy last minimizeSum
  -- What is done after the copy is done to the copy, which comes behind all others.
  have kept {after : Store} (beside : Beside copied after store.programs.length) :
      ∀ other < store.programs.length, after.program? other = store.program? other :=
    fun other before => (beside.others other before.ne).trans (changes.others other before.ne)
  rw [run]
  generalize ((problem.solveForLast (some last) minimizeSum program).told cutoff).outcome =
    outcome at comes
  cases comes with
  | ok after done beside _ _ => exact ⟨after, done, kept beside⟩
  | error after failed beside => exact ⟨after, failed, kept beside⟩

end Steps

end Store

/-- Minimising the start of the last operation of a scheduler and then the sum of all starts, on a
copy of any program with a start variable for each operation and whatever else it holds, fails as an
internal error of the solver just where nothing is feasible, as long as all texts on the way can be
written. Where something is feasible, it takes two solutions, and gives a feasible point at which
the last start is the least of all feasible points and the sum of all starts the least of those with
that last start, unless some text on the way cannot be written. However it ends, all programs that
there were are what they were before. -/
theorem lastFirst_solution_is_exact {ν : Type} {problem : Problem ν} {variant : Variant}
    {choice : Option String} {minimizeSum : Bool} {last : String} {calls : List Call}
    {number : Nat} {program : LinearProgram}
    (created : Scheduler.create problem .simplex variant choice minimizeSum =
      .ok (.simplex variant (some last) true))
    (stored : (Store.ofCalls calls).program? number = some program)
    (covered : ∀ name ∈ problem.operationNames, startVariable name ∈ program.unknowns)
    (cutoff : Level) :
    let store := Store.ofCalls calls
    let narrated := problem.solveForLast (some last) true program
    let outcome := (narrated.told cutoff).outcome
    (∃ after, Store.solveForLast cutoff problem last true number store =
        Store.ending after outcome ∧
      ∀ other < store.programs.length, after.program? other = store.program? other) ∧
    ((∃ fault, outcome = .error fault ∧ fault.kind? = some .solverInternalError) ↔
      narrated.IsTellable cutoff ∧ ∀ x, ¬program.Feasible x) ∧
    ((∃ x, program.Feasible x) → ∃ solution effort,
      narrated.EndsAs cutoff (.ok (solution, effort)) ∧
      effort.solves = 2 ∧ solution.values.names = program.unknowns ∧
      program.Feasible solution.assignment ∧
      (∀ x, program.Feasible x →
        solution.assignment (startVariable last) ≤ x (startVariable last)) ∧
      ∀ x, program.Feasible x →
        x (startVariable last) = solution.assignment (startVariable last) →
          ∑ name ∈ problem.operationNames.toFinset, solution.assignment (startVariable name) ≤
            ∑ name ∈ problem.operationNames.toFinset, x (startVariable name)) := by
  intro store narrated outcome
  have good := Store.good_ofCalls calls
  have tidy := good.tidy_of_program? stored
  have known := Problem.mem_of_create_simplex created
  refine ⟨Store.exists_solveForLast good.sound stored cutoff problem tidy last true, ?_⟩
  rcases Problem.outcome_solveForLast_cases tidy.toWellFormed covered known true with
    ⟨solution, effort, solved, least⟩ | ⟨failed, nothing⟩
  · -- A solution is feasible itself, so that it cannot come up where nothing is.
    have feasible := least.corner.feasible
    have ends : narrated.EndsAs cutoff (.ok (solution, effort)) := Narrated.endsAs_of_ok solved
    refine ⟨⟨?_, fun both => absurd feasible (both.2 _)⟩, fun _ => ?_⟩
    · rintro ⟨fault, failed, isKind⟩
      -- All that it could fail for is a text, and that is no error of the solver.
      by_cases tellable : narrated.IsTellable cutoff
      · cases (ends.of_isTellable tellable).symm.trans failed
      · cases (ends.of_not_isTellable tellable).symm.trans failed
        cases isKind
    · exact ⟨solution, effort, ends, Problem.solves_of_solveForLast solved, least.names,
        feasible, least.earliest, least.sum rfl⟩
  · have ends : narrated.EndsAs cutoff (.error _) := Narrated.endsAs_of_error failed rfl
    refine ⟨⟨?_, fun both => ⟨_, ends.of_isTellable both.1, rfl⟩⟩, fun ⟨x, feasible⟩ =>
      absurd feasible (nothing x)⟩
    rintro ⟨fault, failed, isKind⟩
    refine ⟨by_contra fun broken => ?_, nothing⟩
    cases (ends.of_not_isTellable broken).symm.trans failed
    cases isKind

/-- A product and a sum. -/
def Problem.delayedSum : Problem Int :=
  ⟨"delayed sum", [], [⟨"product", "mul", none⟩, ⟨"sum", "add", none⟩], [], none⟩

/-- Bounds with fractions on both starts, between them, and on a variable more. -/
def delayedSumEdits : List Edit :=
  [.addVariable "start:product", .addVariable "start:sum", .addVariable "delay",
    .addConstraint [("start:sum", 2)] .atLeast 5 "late enough",
    .addDifference "start:sum" "start:product" (1 / 2) "product -> sum",
    .addConstraint [("start:product", 2), ("delay", 1)] .atLeast 3 "delayed",
    .addConstraint [("delay", 1)] .atMost 1 "short delay"]

/-- The points within these bounds. -/
theorem feasible_delayedSum (x : String → Rat) : (ofEdits delayedSumEdits).Feasible x ↔
    (0 ≤ x "start:product" ∧ 0 ≤ x "start:sum" ∧ 0 ≤ x "delay") ∧ 5 ≤ 2 * x "start:sum" ∧
      1 / 2 ≤ x "start:sum" - x "start:product" ∧ 3 ≤ 2 * x "start:product" + x "delay" ∧
      x "delay" ≤ 1 := by
  -- With variables and constraints written out, each condition is an inequality of numbers.
  have unknowns : (ofEdits delayedSumEdits).unknowns = ["start:product", "start:sum", "delay"] := by
    decide +kernel
  have constraints : (ofEdits delayedSumEdits).constraints =
      [⟨[("start:sum", 2)], .atLeast, 5, "late enough"⟩,
        ⟨[("start:sum", 1), ("start:product", -1)], .atLeast, 1 / 2, "product -> sum"⟩,
        ⟨[("start:product", 2), ("delay", 1)], .atLeast, 3, "delayed"⟩,
        ⟨[("delay", 1)], .atMost, 1, "short delay"⟩] := by
    decide +kernel
  rw [Feasible, unknowns, constraints]
  simp [Constraint.Holds, Relation.Holds, ← sub_eq_add_neg]

/-- The sum starts as early as it can, and the product as early as that lets it. -/
theorem delayedSum_solution_is_exact :
    let store := Store.ofCalls (delayedSumEdits.map (.edit 0))
    store.program? 0 = some (ofEdits delayedSumEdits) ∧ ∃ after solution effort,
      Store.solveForLast .debug Problem.delayedSum "sum" true 0 store =
        .ok (solution, effort) after ∧
      after.program? 0 = some (ofEdits delayedSumEdits) ∧ effort.solves = 2 ∧
      solution.assignment "start:sum" = 5 / 2 ∧ solution.assignment "start:product" = 1 := by
  intro store
  have created : Scheduler.create Problem.delayedSum .simplex .basic none true =
      .ok (.simplex .basic (some "sum") true) := rfl
  have stored : store.program? 0 = some (ofEdits delayedSumEdits) := by decide +kernel
  -- Both operations have a variable.
  have covered : ∀ name ∈ Problem.delayedSum.operationNames,
      startVariable name ∈ (ofEdits delayedSumEdits).unknowns := by
    decide +kernel
  have tellable : (Problem.delayedSum.solveForLast (some "sum") true
      (ofEdits delayedSumEdits)).IsTellable .debug := by
    decide +kernel
  -- The sum can start two and a half cycles in, and the product a cycle and a half before it.
  let early (name : String) : Rat := if name = "start:sum" then 5 / 2 else 1
  obtain ⟨product, sum, delay⟩ :
      early "start:product" = 1 ∧ early "start:sum" = 5 / 2 ∧ early "delay" = 1 := by
    simp [early]
  have feasible : (ofEdits delayedSumEdits).Feasible early := by
    rw [feasible_delayedSum, product, sum, delay]
    norm_num
  obtain ⟨⟨after, run, kept⟩, _, exact_⟩ :=
    lastFirst_solution_is_exact created stored covered .debug
  obtain ⟨solution, effort, solved, twice, _, point, earliest, least⟩ := exact_ ⟨early, feasible⟩
  rw [feasible_delayedSum] at point
  have soonest := earliest early feasible
  rw [show startVariable "sum" = "start:sum" from rfl, sum] at soonest
  have last : solution.assignment "start:sum" = 5 / 2 := by linarith
  -- With the sum held there, the product starts as early as a short delay lets it.
  have together := least early feasible (by
    rw [show startVariable "sum" = "start:sum" from rfl, sum, last])
  have operations : Problem.delayedSum.operationNames.toFinset = {"product", "sum"} := by decide
  rw [operations, Finset.sum_pair (by decide), Finset.sum_pair (by decide),
    show startVariable "sum" = "start:sum" from rfl,
    show startVariable "product" = "start:product" from rfl, sum, product, last] at together
  -- The messages can all be written, so the run on the store gives the same solution.
  rw [solved.of_isTellable tellable] at run
  exact ⟨stored, after, solution, effort, run, (kept 0 (by decide +kernel)).trans stored, twice,
    last, by linarith⟩

/-- A bound with too many digits on one of the starts. -/
def lateSumEdits : List Edit :=
  [.addVariable "start:product", .addVariable "start:sum",
    .addConstraint [("start:sum", 1)] .atLeast Text.leastUnwritable "late"]

/-- The points within this bound. -/
theorem feasible_lateSum (x : String → Rat) : (ofEdits lateSumEdits).Feasible x ↔
    (0 ≤ x "start:product" ∧ 0 ≤ x "start:sum") ∧ Text.leastUnwritable ≤ x "start:sum" := by
  -- As before, each condition is written out.
  have unknowns : (ofEdits lateSumEdits).unknowns = ["start:product", "start:sum"] := by
    decide +kernel
  have constraints : (ofEdits lateSumEdits).constraints =
      [⟨[("start:sum", 1)], .atLeast, Text.leastUnwritable, "late"⟩] := by
    decide +kernel
  rw [Feasible, unknowns, constraints]
  simp [Constraint.Holds, Relation.Holds]

/-- A feasible program has no solution if its optimum has too many digits. -/
theorem lateSum_solution_is_lost :
    (ofEdits lateSumEdits).Feasible (fun _ => Text.leastUnwritable) ∧
      ((Problem.delayedSum.solveForLast (some "sum") true (ofEdits lateSumEdits)).told
        .error).outcome = .error .unwritable := by
  refine ⟨(feasible_lateSum _).mpr ⟨⟨?_, ?_⟩, le_rfl⟩, ?_⟩
  · exact_mod_cast (by decide +kernel : 0 ≤ Text.leastUnwritable)
  · exact_mod_cast (by decide +kernel : 0 ≤ Text.leastUnwritable)
  · -- The optimum is what the message after the first solve would show.
    rw [Narrated.outcome_told, if_neg (by decide +kernel)]

end CycleSchedule
