import CycleSchedule.Proofs.Scheduler.Limits

/-! Delays: with limited operators an operation starts later than its results only where the others
of its type leave no instance in any earlier window. -/

namespace CycleSchedule

namespace Problem

open CycleSchedule.Shared

variable {problem : Problem Int} {pinned initial starts : NameTable Int} {pending : List String}
  {progress next : Progress Int} {operation : Operation} {operatorType : OperatorType Int}
  {limit slot first : Int} {name : String}

/-- No operation starts before its results are there. -/
theorem Least.readyAt_le (least : problem.Least pinned starts)
    (known : name ∈ problem.operationNames) :
    problem.readyAt starts name ≤ starts.valueAt name := by
  -- Ready means that the results of all dependences are there, and none before cycle zero.
  refine readyAt_le_iff.mpr ⟨by exact_mod_cast least.admissible.nonneg name known, ?_⟩
  rintro dependence member rfl
  exact_mod_cast least.admissible.ordered dependence member

/-- An operation that is not pinned can be moved back to where its results are there. -/
theorem Least.admissible_put_readyAt (least : problem.Least pinned starts)
    (known : name ∈ problem.operationNames) (free : name ∉ pinned.names) :
    problem.Admissible pinned fun other =>
      (NameTable.valueAt (starts.put name (problem.readyAt starts name)) other : Rat) := by
  have value (other : String) : NameTable.valueAt (starts.put name (problem.readyAt starts name))
      other = if name = other then problem.readyAt starts name else starts.valueAt other :=
    NameTable.valueAt_put _ _ _ _
  refine ⟨fun other member => ?_, fun edge member => ?_, fun other place isPinned => ?_⟩
  · -- No results are there before cycle zero.
    rw [value]
    split
    · exact_mod_cast readyAt_nonneg
    · exact least.admissible.nonneg other member
  · have ordered : starts.valueAt edge.source + problem.latencyOf edge.source ≤
      starts.valueAt edge.destination := by exact_mod_cast least.admissible.ordered edge member
    -- Its own result comes no later than before.
    have earlier : NameTable.valueAt (starts.put name (problem.readyAt starts name)) edge.source ≤
        starts.valueAt edge.source := by
      rw [value]
      split
      · rename_i here
        exact here ▸ least.readyAt_le known
      · exact le_rfl
    -- The results that it needs are there in time.
    have inTime : starts.valueAt edge.source + problem.latencyOf edge.source ≤
        NameTable.valueAt (starts.put name (problem.readyAt starts name)) edge.destination := by
      rw [value]
      split
      · rename_i here
        exact le_readyAt member here.symm
      · exact ordered
    exact_mod_cast (Int.add_le_add_right earlier _).trans inTime
  · -- What is pinned is another operation, which stays in its place.
    have different : name ≠ other := fun same =>
      free (same ▸ NameTable.mem_names_of_get? isPinned)
    rw [value, if_neg different]
    exact least.admissible.held other place isPinned

/-- So it starts there in the first place. -/
theorem Least.valueAt_eq_readyAt (least : problem.Least pinned starts)
    (known : name ∈ problem.operationNames) (free : name ∉ pinned.names) :
    starts.valueAt name = problem.readyAt starts name := by
  -- Nothing admissible is before the least starts, the moved ones included.
  have lower := least.least _ (least.admissible_put_readyAt known free) name known
  rw [NameTable.valueAt_put, if_pos rfl] at lower
  exact le_antisymm (by exact_mod_cast lower) (least.readyAt_le known)

section Step

variable (step : problem.Step pending progress next operation operatorType limit slot)
  (pinning : problem.Pinning initial pending progress)

include step pinning

/-- A step makes no operation start earlier. -/
theorem Step.valueAt_le (known : name ∈ problem.operationNames) :
    progress.starts.valueAt name ≤ next.starts.valueAt name := by
  -- Starts with one more pin are admissible for the pins before.
  have admissible := step.least.admissible
  rw [step.pinned, admissible_put (pinning.apart _ step.isPending)] at admissible
  exact_mod_cast pinning.least.least _ admissible.1 name known

/-- Nor does a step make results be there earlier. -/
theorem Step.readyAt_le (wellFormed : problem.WellFormed) (name : String) :
    problem.readyAt progress.starts name ≤ problem.readyAt next.starts name := by
  refine readyAt_le_iff.mpr ⟨readyAt_nonneg, fun dependence member here => ?_⟩
  -- Each result comes from a start that is no earlier after the step.
  have source := step.valueAt_le pinning (wellFormed.endpoints dependence member).1
  have result : next.starts.valueAt dependence.source + problem.latencyOf dependence.source ≤
      problem.readyAt next.starts name := le_readyAt member here
  omega

end Step

/-- The table in which a step reserves a window has this window after the step. -/
theorem Step.tableFor_self
    (step : problem.Step pending progress next operation operatorType limit slot) :
    tableFor next.tables operatorType limit =
      (tableFor progress.tables operatorType limit).hold operation.name slot := by
  rw [step.tables, tableFor_put, if_pos rfl]

/-- A step frees no window. -/
theorem Step.barred
    (step : problem.Step pending progress next operation operatorType limit slot)
    (wellFormed : problem.WellFormed) {other : OperatorType Int}
    (member : other ∈ problem.operatorTypes) {bound : Int} (limited : other.limit = some bound)
    (barred : (tableFor progress.tables other bound).Barred name first) :
    (tableFor next.tables other bound).Barred name first := by
  by_cases same : operatorType.name = other.name
  · -- The table of the type gets one more window.
    obtain rfl : operatorType = other :=
      wellFormed.eq_of_type_name step.typeMember member same
    obtain rfl : limit = bound := Option.some.inj (step.limited.symm.trans limited)
    rw [step.tableFor_self]
    exact barred.hold _ _
  · -- All other tables stay as they are.
    rwa [step.tables, tableFor_put, if_neg same]

/-- A step pins its operation to the first window that it is not barred from. -/
theorem Step.barred_of_lt
    (step : problem.Step pending progress next operation operatorType limit slot)
    (pinning : problem.Pinning initial pending progress)
    (after : progress.starts.valueAt operation.name ≤ first) (before : first < slot) :
    (tableFor progress.tables operatorType limit).Barred operation.name first := by
  have reserves := pinning.reserved operatorType step.typeMember limit step.limited
  -- Only what is pinned has a window, and the operation is still pending.
  have absent : operation.name ∉ (tableFor progress.tables operatorType limit).held.map (·.1) := by
    intro isHeld
    obtain ⟨⟨holder, place⟩, held, same⟩ := List.mem_map.mp isHeld
    have isPinned := NameTable.mem_names_of_get? (reserves.pins holder place held).1
    exact pinning.apart operation.name step.isPending (same ▸ isPinned)
  exact reserves.keeps.barred step.free absent after before

/-- Every pinned operation is barred from the windows between its results and its own one. -/
def Packed (problem : Problem Int) (progress : Progress Int) : Prop :=
  ∀ operation ∈ problem.operations, ∀ slot, progress.pinned.get? operation.name = some slot →
    ∀ operatorType ∈ problem.operatorTypes, operatorType.name = operation.operatorType →
      ∀ limit, operatorType.limit = some limit →
        ∀ first, problem.readyAt progress.starts operation.name ≤ first → first < slot →
          (tableFor progress.tables operatorType limit).Barred operation.name first

/-- What is packed stays so: results only come later, and windows are only taken. -/
theorem Step.packed
    (step : problem.Step pending progress next operation operatorType limit slot)
    (wellFormed : problem.WellFormed) (pinning : problem.Pinning initial pending progress)
    (packed : problem.Packed progress) : problem.Packed next := by
  intro another member place isPinned otherType typeMember isType bound limited earlier after before
  have ready := (step.readyAt_le pinning wellFormed another.name).trans after
  rw [step.pinned, NameTable.get?_put] at isPinned
  split at isPinned
  · -- The operation that the step pins has asked for a window from where it was ready.
    rename_i same
    obtain rfl : operation = another :=
      wellFormed.eq_of_operation_name step.member member same
    obtain rfl : operatorType = otherType := wellFormed.eq_of_type_name
      step.typeMember typeMember (step.isType.trans isType.symm)
    obtain rfl : limit = bound := Option.some.inj (step.limited.symm.trans limited)
    obtain rfl : slot = place := Option.some.inj isPinned
    have wanted := pinning.least.valueAt_eq_readyAt (mem_operationNames member)
      (pinning.apart _ step.isPending)
    exact step.barred wellFormed typeMember limited
      (step.barred_of_lt pinning (wanted.trans_le ready) before)
  · -- What was pinned before was barred from its earlier windows already.
    exact step.barred wellFormed typeMember limited
      (packed another member place isPinned otherType typeMember isType bound limited earlier ready
        before)

/-- In every state that is reached the pinned operations are packed. -/
theorem Reaches.packed (reaches : problem.Reaches initial pending progress)
    (wellFormed : problem.WellFormed) : problem.Packed progress := by
  induction reaches with
  | start =>
    -- Nothing is pinned yet.
    exact fun _ _ _ isPinned => by simp at isPinned
  | step before step ih => exact step.packed wellFormed (before.pinning wellFormed) ih

/-- How many operations of a type hold an instance of it in a cycle, besides one of them. -/
def busyBeside (problem : Problem Int) (starts : NameTable Int) (operatorType : OperatorType Int)
    (name : String) (cycle : Int) : Nat :=
  (problem.operationsOfType operatorType.name).countP fun other =>
    other.name ≠ name && (starts.valueAt other.name ≤ cycle &&
      cycle < starts.valueAt other.name + max operatorType.latency 1)

/-- The window of an operation cannot start in a cycle: the type of the operation is limited, and in
some cycle of the window the others of the type hold all instances. -/
def Crowded (problem : Problem Int) (starts : NameTable Int) (operation : Operation)
    (first : Int) : Prop :=
  ∃ operatorType ∈ problem.operatorTypes, operatorType.name = operation.operatorType ∧
    ∃ limit, operatorType.limit = some limit ∧
      ∃ cycle, first ≤ cycle ∧ cycle < first + max operatorType.latency 1 ∧
        limit ≤ (problem.busyBeside starts operatorType operation.name cycle : Int)

/-- All windows that a table holds are those of operations at their starts. -/
theorem Reserves.held_subset {table : ReservationTable Int}
    (reserves : problem.Reserves pinned operatorType limit table)
    (least : problem.Least pinned starts) : table.held ⊆ problem.windowsOf starts operatorType := by
  rintro ⟨holder, place⟩ isHeld
  obtain ⟨isPinned, operation, member, rfl⟩ := reserves.pins holder place isHeld
  -- A window is held where its operation is pinned, and what is pinned starts there.
  have here : starts.valueAt operation.name = place := by
    exact_mod_cast least.admissible.held operation.name place isPinned
  exact List.mem_map.mpr ⟨operation, member, by rw [here]⟩

/-- So a table counts no more windows than there are operations that are busy. -/
theorem Reserves.usageBeside_le {table : ReservationTable Int}
    (reserves : problem.Reserves pinned operatorType limit table)
    (least : problem.Least pinned starts) (name : String) (cycle : Int) :
    table.usageBeside name cycle ≤ problem.busyBeside starts operatorType name cycle := by
  -- No operation has two windows, so that each of them is that of another operation.
  have fewer := ((List.Nodup.of_map _ reserves.distinct).subperm
    (reserves.held_subset least)).countP_le fun entry =>
      entry.1 ≠ name && (entry.2 ≤ cycle && cycle < entry.2 + table.width)
  rw [windowsOf, List.countP_map, reserves.width] at fewer
  rw [ReservationTable.usageBeside, reserves.width]
  exact fewer

section Finishes

variable {final : Progress Int}

/-- In the end operations are kept from all windows between their results and their starts. -/
theorem Finishes.crowded (finishes : problem.Finishes initial final starts)
    (wellFormed : problem.WellFormed) (member : operation ∈ problem.operations)
    (after : problem.readyAt starts operation.name ≤ first)
    (before : first < starts.valueAt operation.name) :
    problem.Crowded starts operation first := by
  have pinning := finishes.reaches.pinning wellFormed
  have known : operation.name ∈ problem.operationNames := mem_operationNames member
  -- The final starts are those that the last step has left.
  have same (other : String) : final.starts.valueAt other = starts.valueAt other := by
    rw [NameTable.valueAt, pinning.least.get?_eq finishes.least, NameTable.valueAt]
  have ready : problem.readyAt final.starts operation.name =
      problem.readyAt starts operation.name := by
    simp only [readyAt, same]
  -- An operation that is not pinned starts when it is ready.
  have isPinned : operation.name ∈ final.pinned.names := by
    by_contra free
    have start := finishes.least.valueAt_eq_readyAt known free
    omega
  obtain ⟨another, otherMember, sameName, operatorType, typeMember, isType, limited⟩ :=
    mem_pendingOperations.mp ((pinning.divided operation.name).mpr (Or.inr isPinned))
  obtain rfl : another = operation :=
    wellFormed.eq_of_operation_name otherMember member sameName
  obtain ⟨limit, limited⟩ := Option.ne_none_iff_exists'.mp limited
  obtain ⟨slot, isPinned⟩ := NameTable.exists_get?_of_mem isPinned
  have here : starts.valueAt another.name = slot := by
    exact_mod_cast finishes.least.admissible.held _ slot isPinned
  have reserves := pinning.reserved operatorType typeMember limit limited
  -- One that is pinned is barred by windows of the table, which are those of the final starts.
  obtain ⟨cycle, afterFirst, beforeEnd, full⟩ := finishes.reaches.packed wellFormed another member
    slot isPinned operatorType typeMember isType limit limited first (ready ▸ after) (here ▸ before)
  rw [reserves.width] at beforeEnd
  rw [reserves.limit] at full
  have busy := reserves.usageBeside_le finishes.least another.name cycle
  exact ⟨operatorType, typeMember, isType, limit, limited, cycle, afterFirst, beforeEnd,
    full.trans (by exact_mod_cast busy)⟩

end Finishes

/-- An operation that is busy is one more than those besides it. -/
theorem busyBeside_lt_busy (member : operation ∈ problem.operationsOfType operatorType.name)
    {cycle : Int} (after : starts.valueAt operation.name ≤ cycle)
    (before : cycle < starts.valueAt operation.name + max operatorType.latency 1) :
    problem.busyBeside starts operatorType operation.name cycle <
      problem.busy starts operatorType cycle := by
  -- It counts among all of them, and each of the others counts for both.
  obtain ⟨first, second, isList⟩ := List.append_of_mem member
  rw [busyBeside, busy, isList, List.countP_append, List.countP_append,
    List.countP_cons_of_neg (by simp), List.countP_cons_of_pos (by simp [after, before])]
  have fewer (others : List Operation) : (others.countP fun other =>
      other.name ≠ operation.name && (starts.valueAt other.name ≤ cycle &&
        cycle < starts.valueAt other.name + max operatorType.latency 1)) ≤
      others.countP fun other => starts.valueAt other.name ≤ cycle &&
        cycle < starts.valueAt other.name + max operatorType.latency 1 :=
    List.countP_mono_left fun other _ holds => (Bool.and_eq_true_iff.mp holds).2
  have left := fewer first
  have right := fewer second
  omega

/-- The others are as busy whatever happens to the operation that they are besides. -/
theorem busyBeside_congr {moved : NameTable Int}
    (same : ∀ other ∈ problem.operationNames, other ≠ name →
      moved.valueAt other = starts.valueAt other) (cycle : Int) :
    problem.busyBeside moved operatorType name cycle =
      problem.busyBeside starts operatorType name cycle := by
  refine List.countP_congr fun other member => ?_
  -- Whoever counts has another name, and so starts where it did.
  have known : other.name ∈ problem.operationNames :=
    mem_operationNames (List.mem_filter.mp member).1
  by_cases here : other.name = name
  · simp [here]
  · rw [same other.name known here]

/-- One operation alone cannot be moved to before it is ready, nor to a crowded window. -/
theorem WellFormed.checkSchedule_put_ne_ok (wellFormed : problem.WellFormed)
    (acyclic : ¬HasCycle problem.dependences) (member : operation ∈ problem.operations)
    (crowded : problem.readyAt starts operation.name ≤ first →
      problem.Crowded starts operation first) :
    problem.checkSchedule (NameTable.known (starts.put operation.name first)) none
      .sharedOperators ≠ .ok () := by
  intro passed
  obtain ⟨moved, interval, gives, usable, respects, within⟩ :=
    wellFormed.respects_of_checkSchedule passed
  obtain rfl : 0 = interval := by simpa [usableInterval] using usable
  have known : operation.name ∈ problem.operationNames := mem_operationNames member
  -- What has passed are the starts with the operation moved.
  have value (other : String) (isKnown : other ∈ problem.operationNames) :
      moved.valueAt other = if operation.name = other then first else starts.valueAt other := by
    have given := gives.same other isKnown
    rw [NameTable.known, NameTable.get?_mapValues] at given
    obtain ⟨start, found, same⟩ := Option.map_eq_some_iff.mp given
    rw [← Option.some.inj same, ← NameTable.valueAt_of_get? found, NameTable.valueAt_put]
  have own : moved.valueAt operation.name = first := by rw [value _ known, if_pos rfl]
  have others (other : String) (isKnown : other ∈ problem.operationNames)
      (different : other ≠ operation.name) : moved.valueAt other = starts.valueAt other := by
    rw [value other isKnown, if_neg different.symm]
  -- All results are there by then, none of which it needs from itself.
  have ready : problem.readyAt starts operation.name ≤ first := by
    refine readyAt_le_iff.mpr ⟨own ▸ respects.nonneg _ known, fun dependence edgeMember here => ?_⟩
    have notItself : dependence.source ≠ operation.name := fun itself =>
      acyclic (hasCycle_of_loop edgeMember (here.trans itself.symm))
    have ordered := respects.ordered dependence edgeMember
    rw [here, own, others _ (wellFormed.endpoints dependence edgeMember).1 notItself] at ordered
    omega
  -- So some cycle of its window would be used by one operation too many.
  obtain ⟨operatorType, typeMember, isType, limit, limited, cycle, after, before, full⟩ :=
    crowded ready
  have more : problem.busyBeside moved operatorType operation.name cycle <
      problem.busy moved operatorType cycle :=
    busyBeside_lt_busy (List.mem_filter.mpr ⟨member, by simpa using isType.symm⟩)
      (own.trans_le after) (own ▸ before)
  rw [busyBeside_congr others] at more
  have limits := within rfl operatorType typeMember limit limited cycle
  omega

end Problem

/-- For every checked problem whose dependences form no cycle, scheduling with limited operators
delays no operation without need. None starts before its results are there; where one starts later,
the other operations of its type take all instances in some cycle of every earlier window. So
operations of unlimited types start as soon as their results are there, and no operation can be
moved to an earlier cycle with all others kept where they are. -/
theorem shared_schedule_delays_only_where_crowded {problem : Problem Value} {last : Option String}
    (checked : problem.check (some .sharedOperators) = .ok ())
    (acyclic : ¬HasCycle problem.dependences)
    (known : ∀ name, last = some name → name ∈ problem.operationNames) (minimizeSum : Bool) :
    ∃ (task : Problem Int) (scheduler : Scheduler) (result : AlgorithmResult Int),
      problem.whole = .ok task ∧
      Scheduler.create task .simplex .sharedOperators last minimizeSum = .ok scheduler ∧
      (scheduler.run task).outcome = .ok result ∧
      result.starts.names = problem.operationNames ∧
      ∀ operation ∈ task.operations,
        task.readyAt result.starts operation.name ≤ result.starts.valueAt operation.name ∧
        (∀ first, task.readyAt result.starts operation.name ≤ first →
          first < result.starts.valueAt operation.name →
            task.Crowded result.starts operation first) ∧
        ((∀ operatorType ∈ task.operatorTypes, operatorType.name = operation.operatorType →
            operatorType.limit = none) →
          result.starts.valueAt operation.name = task.readyAt result.starts operation.name) ∧
        ∀ first, first < result.starts.valueAt operation.name →
          task.checkSchedule (NameTable.known (result.starts.put operation.name first)) none
            .sharedOperators ≠ .ok () := by
  obtain ⟨task, rfl, wellFormed, fits⟩ := Problem.exists_values_of_check checked
  have single := fits.single (by simp)
  obtain ⟨resolved, isResolved, hasLast⟩ := Problem.resolveLast_ok
    (show ∀ name, last = some name → name ∈ task.operationNames from known)
  rw [Problem.hasCycle_values] at acyclic
  -- Without a cycle the operations can be sorted.
  obtain ⟨order, sorted, all, follows⟩ := wellFormed.exists_order single acyclic
  obtain ⟨starts, metadata, found, respects, _, finished⟩ :=
    wellFormed.exists_sharedSchedule single sorted all follows hasLast
  refine ⟨task, .simplex .sharedOperators resolved true, ⟨starts, none, metadata⟩,
    task.whole_values, by simp [Problem.create_simplex isResolved],
    (Problem.outcome_run_simplex task .sharedOperators resolved true).trans found,
    respects.names, fun operation member => ?_⟩
  rcases finished with nothing | ⟨initial, final, finishes⟩
  · simp [nothing] at member
  · have ready := finishes.least.readyAt_le (Problem.mem_operationNames member)
    refine ⟨ready, fun first after before => finishes.crowded wellFormed member after before,
      fun unlimited => ?_, fun first before => wellFormed.checkSchedule_put_ne_ok acyclic member
        fun after => finishes.crowded wellFormed member after before⟩
    -- An operation that had to wait would be of a limited type.
    by_contra waits
    obtain ⟨operatorType, typeMember, isType, limit, limited, _⟩ :=
      finishes.crowded wellFormed member le_rfl (lt_of_le_of_ne ready fun same => waits same.symm)
    simp [unlimited operatorType typeMember isType] at limited

/-- The schedule of the sum of products delays an operation only where its operators are taken. -/
theorem sumOfProducts_delays_only_where_crowded :
    ∃ (task : Problem Int) (scheduler : Scheduler) (result : AlgorithmResult Int),
      Problem.sumOfProducts.values.whole = .ok task ∧
      Scheduler.create task .simplex .sharedOperators none false = .ok scheduler ∧
      (scheduler.run task).outcome = .ok result ∧
      result.starts.names = ["x", "y", "sum"] ∧
      ∀ operation ∈ task.operations,
        task.readyAt result.starts operation.name ≤ result.starts.valueAt operation.name ∧
        (∀ first, task.readyAt result.starts operation.name ≤ first →
          first < result.starts.valueAt operation.name →
            task.Crowded result.starts operation first) ∧
        ((∀ operatorType ∈ task.operatorTypes, operatorType.name = operation.operatorType →
            operatorType.limit = none) →
          result.starts.valueAt operation.name = task.readyAt result.starts operation.name) ∧
        ∀ first, first < result.starts.valueAt operation.name →
          task.checkSchedule (NameTable.known (result.starts.put operation.name first)) none
            .sharedOperators ≠ .ok () :=
  shared_schedule_delays_only_where_crowded (Problem.check_sumOfProducts .sharedOperators)
    Problem.not_hasCycle_sumOfProducts (by simp) false

end CycleSchedule
