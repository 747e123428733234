import CycleSchedule.Proofs.Problem.Validity
import CycleSchedule.Proofs.Scheduler.Pinning

/-! Schedules with limited operators: every checked problem without a cycle gets one that respects
the dependences and the limits. -/

namespace CycleSchedule

namespace Problem

open CycleSchedule.Shared

variable {problem : Problem Int} {pinned starts : NameTable Int} {last : String}
  {tables : NameTable (ReservationTable Int)}

/-- An operator type has one window for each of its operations. -/
theorem WellFormed.nodup_windowsOf (wellFormed : problem.WellFormed) (starts : NameTable Int)
    (operatorType : OperatorType Int) : (problem.windowsOf starts operatorType).Nodup := by
  refine List.Nodup.of_map (·.1) ?_
  rw [windowsOf, List.map_map]
  exact (List.filter_sublist.map _).nodup wellFormed.operations

/-- Each operation of a limited type is pinned to its start, for which the table has a window. -/
theorem Least.windowsOf_subset (least : problem.Least pinned starts)
    {operatorType : OperatorType Int} (member : operatorType ∈ problem.operatorTypes) {limit : Int}
    (limited : operatorType.limit = some limit) {table : ReservationTable Int}
    (reserves : problem.Reserves pinned operatorType limit table)
    (all : ∀ name ∈ pendingOperations problem, name ∈ pinned.names) :
    problem.windowsOf starts operatorType ⊆ table.held := by
  intro entry inside
  obtain ⟨operation, found, rfl⟩ := List.mem_map.mp inside
  obtain ⟨known, isType⟩ := List.mem_filter.mp found
  have typed : operation.operatorType = operatorType.name := by simpa using isType
  -- The type has a limit, so the operation was pending, and has been pinned.
  obtain ⟨slot, isPinned⟩ := NameTable.exists_get?_of_mem (all operation.name
    (mem_pendingOperations.mpr ⟨operation, known, rfl, operatorType, member, typed.symm,
      by simp [limited]⟩))
  -- The pin is kept by the starts.
  have here : starts.valueAt operation.name = slot := by
    exact_mod_cast least.admissible.held operation.name slot isPinned
  rw [here]
  exact reserves.held operation known typed slot isPinned

/-- Where all operations of limited types are pinned, the tables keep the starts within the
limits. -/
theorem Least.withinLimits (least : problem.Least pinned starts)
    (wellFormed : problem.WellFormed) (reserved : problem.Reserved pinned tables)
    (all : ∀ name ∈ pendingOperations problem, name ∈ pinned.names) :
    problem.WithinLimits starts := by
  intro operatorType member limit limited cycle
  have reserves := reserved operatorType member limit limited
  set table := tableFor tables operatorType limit
  -- No more operations are busy than windows of the table hold the cycle.
  have counted : problem.busy starts operatorType cycle ≤ table.usage cycle := by
    have fewer := ((wellFormed.nodup_windowsOf starts operatorType).subperm
      (least.windowsOf_subset member limited reserves all)).countP_le fun entry =>
        entry.2 ≤ cycle && cycle < entry.2 + table.width
    rw [ReservationTable.usage, occupied, ReservationTable.starts, List.countP_map]
    rw [windowsOf, List.countP_map, reserves.width] at fewer
    rw [reserves.width]
    exact fewer
  -- The table itself never holds more than the limit.
  have kept := reserves.keeps.within cycle
  rw [reserves.limit] at kept
  omega

/-- Starts found twice pass as the same. -/
theorem Least.sameStarts {whole : NameTable Int} (least : problem.Least pinned starts)
    (again : problem.Least pinned whole) : sameStarts whole starts = true := by
  -- Both tables have the same names, and as many.
  have names : whole.names.Perm starts.names :=
    (List.perm_ext_iff_of_nodup again.distinct least.distinct).mpr fun name => by
      rw [again.names, least.names]
  have length : whole.length = starts.length := by
    simpa [NameTable.names] using names.length_eq
  rw [Shared.sameStarts, decide_eq_true length, Bool.true_and, List.all_eq_true]
  -- A start of one table is the start of the same name in the other.
  rintro ⟨name, start⟩ member
  rw [← again.get?_eq least, NameTable.get?_of_mem again.distinct member]
  simp

/-- What scheduling within the limits comes to: from the least starts without pins to a state in
which nothing is pending any more, and to starts in the order of the operations that are the least
for all pins. -/
structure Finishes (problem : Problem Int) (initial : NameTable Int) (final : Progress Int)
    (starts : NameTable Int) : Prop where
  first : problem.Least [] initial
  initialNames : initial.names = problem.operationNames
  reaches : problem.Reaches initial [] final
  least : problem.Least final.pinned starts
  names : starts.names = problem.operationNames

section Finishes

variable {initial : NameTable Int} {final : Progress Int}

/-- In the end all operations of limited types are pinned. -/
theorem Finishes.all_pinned (finishes : problem.Finishes initial final starts)
    (wellFormed : problem.WellFormed) :
    ∀ name ∈ pendingOperations problem, name ∈ final.pinned.names := by
  intro name member
  simpa using ((finishes.reaches.pinning wellFormed).divided name).mp member

/-- Once all waiting operations are pinned, the starts stay within the limits. -/
theorem Finishes.withinLimits (finishes : problem.Finishes initial final starts)
    (wellFormed : problem.WellFormed) : problem.WithinLimits starts :=
  finishes.least.withinLimits wellFormed (finishes.reaches.pinning wellFormed).reserved
    (finishes.all_pinned wellFormed)

end Finishes

/-- Tables of whole numbers are measured already. -/
theorem mapValues_ofInt (starts : NameTable Int) :
    starts.mapValues (Measure.ofInt : Int → Int) = starts :=
  List.map_id _

/-- Where the operations are sorted, scheduling them within the limits comes to the same starts and
as many delays whichever operation is the last one, with two solutions at each of its ends. -/
theorem WellFormed.exists_finishes (wellFormed : problem.WellFormed)
    (single : ∀ dependence ∈ problem.dependences, dependence.distance = 0) {order : List String}
    (sorted : problem.topologicalOrder = .ok order) (all : order.Perm problem.operationNames)
    (follows : Graph.Follows problem.dependences [] order) :
    ∃ initial final starts, problem.Finishes initial final starts ∧
      ∀ last ∈ problem.operationNames, ∃ effort : Effort,
        effort.solves = (if final.delayed = 0 then 2 else 4) ∧
        (Shared.schedule problem (some last) true).outcome = .ok ⟨starts, none,
          report (some last) effort (some (initial.valueAt last)) (some final.delayed)⟩ := by
  -- First the least starts without any pins, for which no last operation is needed.
  obtain ⟨program, built, formulates⟩ := wellFormed.precedenceProgram
  obtain ⟨propagated, _, least⟩ := wellFormed.asSoonAsPossible single all follows
  obtain ⟨first, initialNames⟩ := least.inOrder wellFormed
  set initial := problem.operationNames.map fun name => (name, propagated.valueAt name)
  -- Then all operations of limited types are pinned.
  obtain ⟨final, finished, reaches⟩ := Reaches.pinAll wellFormed single all follows
    (pendingOperations problem).length _ _ (.start first formulates) le_rfl
  have pinning := reaches.pinning wellFormed
  obtain ⟨pinned, names⟩ := pinning.least.inOrder wellFormed
  set starts := problem.operationNames.map fun name => (name, final.starts.valueAt name)
  refine ⟨initial, final, starts, ⟨first, initialNames, reaches, pinned, names⟩,
    fun last known => ?_⟩
  -- The first solution shows what the last operation can reach without limits.
  obtain ⟨solution, effort, solved, twice, decoded⟩ :=
    formulates.exists_leastStarts wellFormed first initialNames known
  have lowerBound : startOf initial last = .ok (NameTable.valueAt initial last) :=
    startOf_ok initialNames known
  unfold Shared.schedule
  simp only [Narrated.outcome_bind, Narrated.outcome_lift, wellFormed.ofProblem, ok_bind,
    wellFormed.topologicalOrder_graph, sorted, outcome_narratedPrecedenceProgram, built, solved,
    decoded, lowerBound, Narrated.outcome_tell, mapValues_ofInt, finished]
  by_cases unmoved : final.delayed = 0
  · -- Nothing was pushed back, so that the first starts are the final ones.
    have same : initial = starts :=
      Least.unique (pinning.still unmoved ▸ pinning.least) pinned (initialNames.trans names.symm)
    refine ⟨effort, by rw [if_pos unmoved, twice], ?_⟩
    rw [if_pos unmoved, unmoved, same]
    rfl
  · -- The program knows all pins, and its solution has the same starts.
    obtain ⟨again, more, solvedAgain, twiceMore, decodedAgain⟩ :=
      pinning.formulates.exists_leastStarts wellFormed pinned names known
    refine ⟨effort.plus more, by rw [if_neg unmoved, Effort.plus, twice, twiceMore], ?_⟩
    rw [if_neg unmoved]
    simp only [Narrated.outcome_bind, solvedAgain, ok_bind, Narrated.outcome_lift, decodedAgain,
      pinning.least.sameStarts pinned, Bool.not_true, Bool.false_eq_true, if_false,
      Narrated.outcome_tell]
    rfl

/-- In particular it succeeds for a given last operation, and reports the start of that operation
without limits and how many operations were delayed. -/
theorem WellFormed.outcome_shared (wellFormed : problem.WellFormed)
    (single : ∀ dependence ∈ problem.dependences, dependence.distance = 0) {order : List String}
    (sorted : problem.topologicalOrder = .ok order) (all : order.Perm problem.operationNames)
    (follows : Graph.Follows problem.dependences [] order)
    (known : last ∈ problem.operationNames) :
    ∃ initial final starts effort, problem.Finishes initial final starts ∧
      (Shared.schedule problem (some last) true).outcome = .ok ⟨starts, none,
        report (some last) effort (some (initial.valueAt last)) (some final.delayed)⟩ := by
  -- The last operation only decides what is minimised and reported.
  obtain ⟨initial, final, starts, finishes, found⟩ :=
    wellFormed.exists_finishes single sorted all follows
  obtain ⟨effort, _, outcome⟩ := found last known
  exact ⟨initial, final, starts, effort, finishes, outcome⟩

/-- Also where there is nothing to start there is a schedule. -/
theorem WellFormed.exists_sharedSchedule (wellFormed : problem.WellFormed)
    (single : ∀ dependence ∈ problem.dependences, dependence.distance = 0) {order : List String}
    (sorted : problem.topologicalOrder = .ok order) (all : order.Perm problem.operationNames)
    (follows : Graph.Follows problem.dependences [] order) {resolved : Option String}
    (hasLast : problem.HasLast resolved) :
    ∃ starts metadata,
      (Shared.schedule problem resolved true).outcome = .ok ⟨starts, none, metadata⟩ ∧
        problem.Respects starts 0 ∧ problem.WithinLimits starts ∧
        (problem.operations = [] ∨ ∃ initial final, problem.Finishes initial final starts) := by
  cases resolved with
  | some last =>
    -- With a last operation there is something to schedule.
    obtain ⟨initial, final, starts, effort, finishes, found⟩ :=
      wellFormed.outcome_shared single sorted all follows hasLast
    exact ⟨starts, _, found, finishes.least.respects finishes.names,
      finishes.withinLimits wellFormed, Or.inr ⟨initial, final, finishes⟩⟩
  | none =>
    have nothing : problem.operations = [] := hasLast
    obtain ⟨propagated, _, least⟩ := wellFormed.asSoonAsPossible single all follows
    -- Without operations nothing is solved and the map is empty.
    refine ⟨[], Shared.report none .none none none, ?_, (least.nil nothing).respects ?_, ?_,
      Or.inl nothing⟩
    · simp only [Shared.schedule, Narrated.outcome_bind, Narrated.outcome_lift,
        wellFormed.ofProblem, ok_bind, wellFormed.topologicalOrder_graph, sorted]
      rfl
    · rw [operationNames, nothing]
      rfl
    · intro operatorType member limit limited cycle
      have positive := wellFormed.limits operatorType member limit limited
      -- Nothing is ever busy.
      have unused : problem.busy [] operatorType cycle = 0 := by
        rw [busy, operationsOfType, nothing]
        rfl
      omega

/-- A cycle stops the scheduler before anything else. -/
theorem outcome_shared_of_cycle {fault : Fault} {last : Option String} {minimizeSum : Bool}
    (wellFormed : problem.WellFormed) (failed : problem.topologicalOrder = .error fault) :
    (Shared.schedule problem last minimizeSum).outcome = .error fault := by
  simp only [Shared.schedule, Narrated.outcome_bind, Narrated.outcome_lift, wellFormed.ofProblem,
    ok_bind, wellFormed.topologicalOrder_graph, failed, error_bind]

end Problem

end CycleSchedule
