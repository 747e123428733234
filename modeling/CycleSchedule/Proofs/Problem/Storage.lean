import CycleSchedule.Proofs.Problem.Validity

/-! A stored schedule: the problem differs from the one before in its starts and its interval only,
and what is stored passes when it is verified. -/

namespace CycleSchedule.Problem

section Storing

variable {ν : Type} {problem : Problem ν} {starts : NameTable Int} {interval : Option Int}

/-- The problem with the starts of a table on its operations. -/
def withSchedule (problem : Problem ν) (starts : NameTable Int) (interval : Option Int) :
    Problem ν :=
  { problem with
    operations := problem.operations.map fun operation =>
      { operation with start := starts.get? operation.name }
    interval := interval }

/-- Storing a schedule keeps the names of the operations. -/
@[simp] theorem operationNames_withSchedule :
    (problem.withSchedule starts interval).operationNames = problem.operationNames := by
  simp [withSchedule, operationNames, Function.comp_def]

/-- Where each operation of a list has a start, all of them are stored. -/
theorem storeStarts_known {operations : List Operation}
    (all : ∀ operation ∈ operations, operation.name ∈ starts.names) :
    storeStarts starts.known operations = (operations.map fun operation =>
      { operation with start := starts.get? operation.name }, .ok ()) := by
  -- By induction on the operations still to be stored.
  induction operations with
  | nil => rfl
  | cons operation operations ih =>
    -- The operation has a start, and it is stored.
    obtain ⟨start, found⟩ := NameTable.exists_get?_of_mem (all operation (by simp))
    have known : starts.known.get? operation.name = some (some start) := by
      rw [NameTable.known, NameTable.get?_mapValues, found, Option.map_some]
    rw [storeStarts, known, ih fun other member => all other (List.mem_cons_of_mem _ member),
      List.map_cons, found]

/-- Where every operation has a start, the schedule is stored as a whole. -/
theorem applySchedule_known (all : ∀ name ∈ problem.operationNames, name ∈ starts.names)
    (interval : Option Int) :
    problem.applySchedule starts.known interval =
      (problem.withSchedule starts interval, .ok ()) := by
  rw [applySchedule, storeStarts_known fun operation member => all _ (mem_operationNames member)]
  rfl

/-- The starts that are stored are those of the table. -/
theorem startTimes_withSchedule (names : starts.names = problem.operationNames)
    (distinct : problem.operationNames.Nodup) :
    (problem.withSchedule starts interval).startTimes = starts.known := by
  have listed : ((problem.withSchedule starts interval).operations.map fun operation =>
      (operation.name, operation.start)) = starts.known := by
    calc _ = problem.operationNames.map fun name => (name, starts.get? name) := by
          simp [withSchedule, operationNames, Function.comp_def]
      _ = starts.names.map fun name => (name, starts.get? name) := by rw [names]
      _ = starts.known := by
          -- Under its name each entry is found itself.
          rw [NameTable.names, List.map_map, NameTable.known, NameTable.mapValues]
          refine List.map_congr_left fun entry member => ?_
          rw [Function.comp_apply, NameTable.get?_of_mem (names ▸ distinct) member]
  rw [startTimes, listed]
  -- No name occurs twice among the operations.
  refine NameTable.ofPairs_of_nodup ?_
  rw [show starts.known.map (·.1) = starts.names from NameTable.names_mapValues some starts, names]
  exact distinct

end Storing

section Unchanged

variable {problem : Problem Int} {starts table : NameTable Int} {interval : Option Int}
  {variant : Variant}

/-- Storing a schedule keeps the latencies. -/
@[simp] theorem latencyOf_withSchedule (name : String) :
    (problem.withSchedule starts interval).latencyOf name = problem.latencyOf name := by
  -- The operation of the name keeps its type.
  have found : (problem.withSchedule starts interval).operation? name =
      (problem.operation? name).map fun operation =>
        { operation with start := starts.get? operation.name } := by
    simp only [operation?, withSchedule, List.find?_map]
    rfl
  rw [latencyOf, found, latencyOf]
  cases problem.operation? name <;> rfl

/-- As many operators are busy in a cycle as before the schedule was stored. -/
@[simp] theorem busy_withSchedule (operatorType : OperatorType Int) (cycle : Int) :
    (problem.withSchedule starts interval).busy table operatorType cycle =
      problem.busy table operatorType cycle := by
  simp [busy, operationsOfType, withSchedule, List.filter_map, List.countP_map, Function.comp_def]

/-- A well-formed problem stays well-formed with a schedule stored. -/
theorem WellFormed.withSchedule (wellFormed : problem.WellFormed) :
    (problem.withSchedule starts interval).WellFormed where
  types := wellFormed.types
  operations := by simpa using wellFormed.operations
  latencies := wellFormed.latencies
  limits := wellFormed.limits
  -- The operations are the same but for their starts, and the types have not changed at all.
  registered := List.forall_mem_map.mpr fun operation member =>
    wellFormed.registered operation member
  endpoints dependence member := by simpa using wellFormed.endpoints dependence member
  distances := wellFormed.distances

/-- Starts that respect the dependences respect them once they are stored. -/
theorem Respects.withSchedule {length : Int} (respects : problem.Respects table length) :
    (problem.withSchedule starts interval).Respects table length where
  names := by simpa using respects.names
  nonneg := by simpa using respects.nonneg
  ordered dependence member := by simpa using respects.ordered dependence member

/-- Starts within the limits are within them once they are stored. -/
theorem WithinLimits.withSchedule (within : problem.WithinLimits table) :
    (problem.withSchedule starts interval).WithinLimits table := by
  intro operatorType member limit limited cycle
  rw [busy_withSchedule]
  exact within operatorType member limit limited cycle

/-- Verifying a well-formed problem comes down to the check of what is stored. -/
theorem WellFormed.verify_values (wellFormed : problem.WellFormed) (fits : problem.Fits variant) :
    problem.values.verify (some variant) =
      problem.checkSchedule problem.startTimes problem.interval variant := by
  rw [verify, check_values_iff.mpr ⟨wellFormed, fits⟩, ok_bind, whole_values, ok_bind]
  rfl

/-- A valid schedule that has been stored is verified. -/
theorem Respects.verify_withSchedule {length : Int} (respects : problem.Respects starts length)
    (wellFormed : problem.WellFormed) (fits : problem.Fits variant)
    (usable : variant = .cyclic → 1 ≤ length ∧ interval = some length)
    (within : variant = .sharedOperators → problem.WithinLimits starts) :
    (problem.withSchedule starts interval).values.verify (some variant) = .ok () := by
  rw [wellFormed.withSchedule.verify_values fits,
    startTimes_withSchedule respects.names wellFormed.operations]
  -- The starts are as valid with themselves stored as they were before.
  exact respects.withSchedule.checkSchedule wellFormed.withSchedule fits usable fun shared =>
    (within shared).withSchedule

end Unchanged

end CycleSchedule.Problem
