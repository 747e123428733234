import CycleSchedule.Proofs.Problem.WellFormed
import CycleSchedule.Proofs.Reservation
import CycleSchedule.Scheduler.Service

/-! Starts that respect the dependences and the limits pass the check of schedules, and no others
do. -/

namespace CycleSchedule.Problem

variable {problem : Problem Int} {starts : NameTable Int} {interval : Int} {variant : Variant}

/-- Starts of all operations at which every dependence holds; results reach later iterations by as
many intervals later as their distance is. -/
structure Respects (problem : Problem Int) (starts : NameTable Int) (interval : Int) : Prop where
  names : starts.names = problem.operationNames
  nonneg : ∀ name ∈ problem.operationNames, 0 ≤ starts.valueAt name
  ordered : ∀ dependence ∈ problem.dependences,
    starts.valueAt dependence.source + problem.latencyOf dependence.source ≤
      starts.valueAt dependence.destination + interval * dependence.distance

/-- Starts that are listed in the order of the operations respect the dependences if none of them is
negative and every dependence holds. -/
theorem WellFormed.respects_map_pair_iff (wellFormed : problem.WellFormed)
    {start : String → Int} :
    problem.Respects (problem.operationNames.map fun name => (name, start name)) interval ↔
      (∀ name ∈ problem.operationNames, 0 ≤ start name) ∧
        ∀ dependence ∈ problem.dependences,
          start dependence.source + problem.latencyOf dependence.source ≤
            start dependence.destination + interval * dependence.distance := by
  -- The table holds at each name of an operation what it was made from.
  have value {name : String} (known : name ∈ problem.operationNames) :
      NameTable.valueAt (problem.operationNames.map fun name => (name, start name)) name =
        start name :=
    NameTable.valueAt_map_pair _ known
  constructor
  · intro respects
    -- The ends of a dependence are operations, so both of their starts are in the table.
    refine ⟨fun name known => value known ▸ respects.nonneg name known,
      fun dependence member => ?_⟩
    obtain ⟨source, destination⟩ := wellFormed.endpoints dependence member
    rw [← value source, ← value destination]
    exact respects.ordered dependence member
  · rintro ⟨nonneg, ordered⟩
    refine ⟨NameTable.names_map_pair _ _, fun name known => ?_, fun dependence member => ?_⟩
    · rw [value known]
      exact nonneg name known
    · -- The other way round the same two look-ups are undone.
      obtain ⟨source, destination⟩ := wellFormed.endpoints dependence member
      rw [value source, value destination]
      exact ordered dependence member

/-- The windows in which the operations of a type hold an instance of it. -/
def windowsOf (problem : Problem Int) (starts : NameTable Int) (operatorType : OperatorType Int) :
    List (String × Int) :=
  (problem.operationsOfType operatorType.name).map fun operation =>
    (operation.name, starts.valueAt operation.name)

/-- How many operations of a type hold an instance of it in a cycle. -/
def busy (problem : Problem Int) (starts : NameTable Int) (operatorType : OperatorType Int)
    (cycle : Int) : Nat :=
  (problem.operationsOfType operatorType.name).countP fun operation =>
    starts.valueAt operation.name ≤ cycle &&
      cycle < starts.valueAt operation.name + max operatorType.latency 1

/-- An operation is busy in the cycles of its window. -/
theorem occupied_windowsOf (operatorType : OperatorType Int) (cycle : Int) :
    occupied (max operatorType.latency 1) ((problem.windowsOf starts operatorType).map (·.2))
      cycle = problem.busy starts operatorType cycle := by
  rw [windowsOf, occupied, List.countP_map, List.countP_map]
  rfl

/-- No limited type is ever used by more operations at once than it has instances. -/
def WithinLimits (problem : Problem Int) (starts : NameTable Int) : Prop :=
  ∀ operatorType ∈ problem.operatorTypes, ∀ limit, operatorType.limit = some limit →
    ∀ cycle, (problem.busy starts operatorType cycle : Int) ≤ limit

/-- A name of the table has its start there. -/
theorem startOf_of_mem_names {name : String} (started : name ∈ starts.names) :
    startOf starts name = .ok (starts.valueAt name) := by
  rw [startOf, NameTable.get?_of_mem_names started]

/-- An operation has its start in a complete table. -/
theorem startOf_ok (names : starts.names = problem.operationNames) {name : String}
    (known : name ∈ problem.operationNames) : startOf starts name = .ok (starts.valueAt name) :=
  startOf_of_mem_names (names ▸ known)

/-- Candidates are complete if every operation has a start among them that is not negative. -/
theorem completeStarts_ok {given : NameTable (Option Int)} {start : String → Int}
    (each : ∀ name ∈ problem.operationNames,
      given.get? name = some (some (start name)) ∧ 0 ≤ start name) :
    problem.completeStarts given =
      .ok (problem.operationNames.map fun name => (name, start name)) := by
  rw [Problem.completeStarts, mapM_ok (fun operation : Operation =>
    (operation.name, start operation.name)) ?_, operationNames, List.map_map]
  · rfl
  -- Each operation has a start, and the start is not refused as negative.
  · intro operation member
    obtain ⟨found, nonneg⟩ := each operation.name (mem_operationNames member)
    rw [found]
    exact if_neg (not_lt.mpr nonneg)

/-- Candidates that give all operations the starts of a table. -/
structure Gives (problem : Problem Int) (given : NameTable (Option Int)) (starts : NameTable Int) :
    Prop where
  names : starts.names = problem.operationNames
  same : ∀ name ∈ problem.operationNames, given.get? name = some (some (starts.valueAt name))

/-- A table of all operations gives its own starts. -/
theorem gives_known (names : starts.names = problem.operationNames) :
    problem.Gives starts.known starts := by
  refine ⟨names, fun name known => ?_⟩
  rw [NameTable.known, NameTable.get?_mapValues, NameTable.get?_of_mem_names (names ▸ known)]
  rfl

/-- Reading the starts that candidates give off one by one gives them back. -/
theorem Gives.completeStarts {given : NameTable (Option Int)} (gives : problem.Gives given starts)
    (wellFormed : problem.WellFormed)
    (nonneg : ∀ name ∈ problem.operationNames, 0 ≤ starts.valueAt name) :
    problem.completeStarts given = .ok starts := by
  -- They are read in the order of the operations, in which the table has them too.
  have same : (problem.operationNames.map fun name => (name, starts.valueAt name)) = starts := by
    refine NameTable.ext_get? ?_ ?_ (NameTable.get?_map_valueAt fun name => by rw [gives.names])
    · rw [gives.names, NameTable.names_map_pair]
    · rw [NameTable.names_map_pair]
      exact wellFormed.operations
  rw [completeStarts_ok fun name known => ⟨gives.same name known, nonneg name known⟩, same]

/-- A dependence passes the check just when its result is there in time. -/
theorem WellFormed.checkDependence_eq_ok_iff (wellFormed : problem.WellFormed)
    (names : starts.names = problem.operationNames) {dependence : Dependence Int}
    (member : dependence ∈ problem.dependences) :
    problem.checkDependence starts interval dependence = .ok () ↔
      starts.valueAt dependence.source + problem.latencyOf dependence.source ≤
        starts.valueAt dependence.destination + interval * dependence.distance := by
  obtain ⟨source, destination⟩ := wellFormed.endpoints dependence member
  simp only [Problem.checkDependence, startOf_ok names source, startOf_ok names destination,
    wellFormed.latencyNamed source, ok_bind, measured_int, ofInt_int]
  -- What is refused is a start before the result, which reaches over the distance.
  split
  · simp only [reduceCtorEq, false_iff]
    omega
  · simp only [true_iff]
    omega

/-- The check of a type passes just when no cycle in which the type is used exceeds its limit. -/
theorem checkLimit_eq_ok_iff_of_started {operatorType : OperatorType Int}
    (started : ∀ operation ∈ problem.operationsOfType operatorType.name,
      operation.name ∈ starts.names) :
    problem.checkLimit starts operatorType = .ok () ↔
      ∀ limit, operatorType.limit = some limit → ∀ cycle,
        0 < problem.busy starts operatorType cycle →
          (problem.busy starts operatorType cycle : Int) ≤ limit := by
  cases limited : operatorType.limit with
  | none => simp [Problem.checkLimit, limited]
  | some limit =>
    set places := (problem.windowsOf starts operatorType).map (·.2) with isPlaces
    -- The check counts the starts whose windows hold a cycle, which are those of the operations.
    have count (cycle : Int) : occupied (max operatorType.latency 1) places cycle =
        problem.busy starts operatorType cycle := occupied_windowsOf operatorType cycle
    have used : problem.startsOfType starts operatorType.name = .ok places := by
      rw [isPlaces, windowsOf, List.map_map]
      exact mapM_ok _ fun operation inside => startOf_of_mem_names (started operation inside)
    simp only [Problem.checkLimit, limited, used, ok_bind, windowWidth_int, measured_int, count,
      ofInt_int, Option.some.injEq, forall_eq']
    constructor
    · intro passed cycle usedHere
      by_contra exceeded
      -- Where a cycle is used too often, some start is used too often as well, and is reported.
      rw [← count] at usedHere
      obtain ⟨start, isStart, _, rises⟩ := exists_start_occupied_le usedHere
      rw [count, count] at rises
      have reported : start ∈ places.filter fun cycle =>
          decide (limit < (problem.busy starts operatorType cycle : Int)) :=
        List.mem_filter.mpr ⟨isStart, by simp only [decide_eq_true_eq]; omega⟩
      split at passed
      · rename_i empty
        simp [List.isEmpty_iff.mp empty] at isStart
      · split at passed
        · simp at passed
        · rename_i none_
          exact List.ne_nil_of_mem reported (List.min?_eq_none_iff.mp none_)
    · intro within
      -- A start is a cycle in which the type is used, so none is reported as used too often.
      have none_ : (places.filter fun cycle =>
          decide (limit < (problem.busy starts operatorType cycle : Int))) = [] := by
        refine List.filter_eq_nil_iff.mpr fun start isStart => ?_
        have usedHere : 0 < occupied (max operatorType.latency 1) places start :=
          List.countP_pos_iff.mpr ⟨start, isStart, by simp⟩
        rw [count] at usedHere
        simpa using within start usedHere
      split
      · rfl
      · rw [none_]
        rfl

/-- The check of a type passes just when the type is never used by more operations than it has
instances. -/
theorem WellFormed.checkLimit_eq_ok_iff (wellFormed : problem.WellFormed)
    (names : starts.names = problem.operationNames) {operatorType : OperatorType Int}
    (member : operatorType ∈ problem.operatorTypes) :
    problem.checkLimit starts operatorType = .ok () ↔
      ∀ limit, operatorType.limit = some limit →
        ∀ cycle, (problem.busy starts operatorType cycle : Int) ≤ limit := by
  rw [checkLimit_eq_ok_iff_of_started fun operation inside =>
    names ▸ mem_operationNames (List.mem_filter.mp inside).1]
  refine forall₂_congr fun limit limited => forall_congr' fun cycle => ?_
  -- There is an instance at least, so that a cycle in which the type is not used is within.
  have positive := wellFormed.limits operatorType member limit limited
  omega

section Passing

variable {given : NameTable (Option Int)} {recorded : Option Int}

/-- A start that is no later than the one that candidates give is found next to it. -/
theorem Gives.exists_later {others : NameTable Int} (gives : problem.Gives given others)
    (names : starts.names = problem.operationNames) {name : String}
    (known : name ∈ problem.operationNames) (le : starts.valueAt name ≤ others.valueAt name) :
    ∃ start later, starts.get? name = some start ∧ given.get? name = some (some later) ∧
      start ≤ later :=
  ⟨_, _, NameTable.get?_of_mem_names (names ▸ known), gives.same name known, le⟩

/-- Two tables have the same start under a name if neither of them has it later than the other. -/
theorem get?_eq_of_exists_later {first second : NameTable Int} {name : String}
    (le : ∃ start later, first.get? name = some start ∧
      second.known.get? name = some (some later) ∧ start ≤ later)
    (ge : ∃ start later, second.get? name = some start ∧
      first.known.get? name = some (some later) ∧ start ≤ later) :
    first.get? name = second.get? name := by
  obtain ⟨start, later, found, given, le⟩ := le
  obtain ⟨start', later', found', given', ge⟩ := ge
  -- What one of them is compared with is the start in the other one.
  rw [NameTable.known, NameTable.get?_mapValues, found', Option.map_some] at given
  rw [NameTable.known, NameTable.get?_mapValues, found, Option.map_some] at given'
  obtain rfl : start' = later := Option.some.inj (Option.some.inj given)
  obtain rfl : start = later' := Option.some.inj (Option.some.inj given')
  rw [found, found', le_antisymm le ge]

/-- Candidates that are complete give every operation a start that is not negative. -/
theorem gives_of_completeStarts (found : problem.completeStarts given = .ok starts) :
    problem.Gives given starts ∧ ∀ name ∈ problem.operationNames, 0 ≤ starts.valueAt name := by
  have each : ∀ name ∈ problem.operationNames,
      ∃ start, given.get? name = some (some start) ∧ 0 ≤ start := by
    rw [operationNames, List.forall_mem_map]
    intro operation member
    obtain ⟨entry, started⟩ := exists_of_mapM_ok found operation member
    -- Neither a missing start nor a negative one would have been accepted.
    cases candidate : (given.get? operation.name).join with
    | none => simp [candidate] at started
    | some start =>
      by_cases negative : start < 0
      · simp [candidate, negative] at started
      · exact ⟨start, Option.join_eq_some_iff.mp candidate, not_lt.mp negative⟩
  choose! start isStart nonneg using each
  -- The complete table lists these starts in the order of the operations.
  obtain rfl := Except.ok.inj ((completeStarts_ok fun name known =>
    ⟨isStart name known, nonneg name known⟩).symm.trans found)
  refine ⟨⟨NameTable.names_map_pair _ _, fun name known => ?_⟩, fun name known => ?_⟩
  · rw [NameTable.valueAt_map_pair start known, isStart name known]
  · rw [NameTable.valueAt_map_pair start known]
    exact nonneg name known

/-- What passes the check gives every operation a start, and respects what the variant asks for. -/
theorem WellFormed.respects_of_checkSchedule (wellFormed : problem.WellFormed)
    (passed : problem.checkSchedule given recorded variant = .ok ()) :
    ∃ starts interval, problem.Gives given starts ∧
      problem.usableInterval recorded variant = .ok interval ∧
      problem.Respects starts interval ∧
      (variant = .sharedOperators → problem.WithinLimits starts) := by
  -- Every part of the check has passed, one after the other.
  rw [Problem.checkSchedule] at passed
  obtain ⟨starts, complete, passed⟩ := bind_eq_ok_iff.mp passed
  obtain ⟨interval, usable, passed⟩ := bind_eq_ok_iff.mp passed
  obtain ⟨_, ordered, limits⟩ := bind_eq_ok_iff.mp passed
  obtain ⟨gives, nonneg⟩ := gives_of_completeStarts complete
  refine ⟨starts, interval, gives, usable, ⟨gives.names, nonneg, fun dependence member =>
    (wellFormed.checkDependence_eq_ok_iff gives.names member).mp
      (of_forM_ok ordered dependence member)⟩, ?_⟩
  rintro rfl operatorType member
  exact (wellFormed.checkLimit_eq_ok_iff gives.names member).mp
    (of_forM_ok limits operatorType member)

/-- There is only one table of starts that candidates give. -/
theorem Gives.unique {others : NameTable Int} (first : problem.Gives given starts)
    (second : problem.Gives given others) (wellFormed : problem.WellFormed) : starts = others := by
  refine NameTable.ext_get? (first.names.trans second.names.symm)
    (first.names ▸ wellFormed.operations) fun name => ?_
  by_cases known : name ∈ problem.operationNames
  · -- Both tables have the start under the name that the candidates give.
    have same := (first.same name known).symm.trans (second.same name known)
    rw [NameTable.get?_of_mem_names (first.names ▸ known),
      NameTable.get?_of_mem_names (second.names ▸ known), Option.some.inj same]
  · rw [NameTable.get?_eq_none_iff.mpr (first.names ▸ known),
      NameTable.get?_eq_none_iff.mpr (second.names ▸ known)]

/-- Candidates pass the check just when the starts that they give respect what the variant asks
for. -/
theorem WellFormed.checkSchedule_eq_ok_iff (wellFormed : problem.WellFormed)
    (gives : problem.Gives given starts) :
    problem.checkSchedule given recorded variant = .ok () ↔
      ∃ interval, problem.usableInterval recorded variant = .ok interval ∧
        problem.Respects starts interval ∧
        (variant = .sharedOperators → problem.WithinLimits starts) := by
  constructor
  · intro passed
    obtain ⟨others, interval, also, usable, respects, within⟩ :=
      wellFormed.respects_of_checkSchedule passed
    -- One map of starts is complete in one way only.
    obtain rfl := gives.unique also wellFormed
    exact ⟨interval, usable, respects, within⟩
  · -- Every part of the check passes, one after the other.
    rintro ⟨interval, usable, respects, within⟩
    rw [Problem.checkSchedule, gives.completeStarts wellFormed respects.nonneg, ok_bind, usable,
      ok_bind, forM_ok fun dependence member =>
        (wellFormed.checkDependence_eq_ok_iff gives.names member).mpr
          (respects.ordered dependence member), ok_bind]
    -- Only shared operators are checked for their limits.
    cases variant with
    | basic => rfl
    | cyclic => rfl
    | sharedOperators => exact forM_ok fun operatorType member =>
        (wellFormed.checkLimit_eq_ok_iff gives.names member).mpr (within rfl operatorType member)

/-- Without limits candidates pass the check just when none of their starts is negative and every
dependence holds. -/
theorem WellFormed.checkSchedule_eq_ok_iff_ordered (wellFormed : problem.WellFormed)
    (unlimited : variant ≠ .sharedOperators) {start : String → Int}
    (each : ∀ name ∈ problem.operationNames, given.get? name = some (some (start name))) :
    problem.checkSchedule given recorded variant = .ok () ↔
      ∃ interval, problem.usableInterval recorded variant = .ok interval ∧
        (∀ name ∈ problem.operationNames, 0 ≤ start name) ∧
        ∀ dependence ∈ problem.dependences,
          start dependence.source + problem.latencyOf dependence.source ≤
            start dependence.destination + interval * dependence.distance := by
  -- The map gives the table of its starts, for which the check is known to be exact.
  have gives : problem.Gives given (problem.operationNames.map fun name => (name, start name)) := by
    refine ⟨NameTable.names_map_pair _ _, fun name known => ?_⟩
    rw [NameTable.valueAt_map_pair start known, each name known]
  simp only [wellFormed.checkSchedule_eq_ok_iff gives, wellFormed.respects_map_pair_iff, unlimited,
    false_implies, and_true]

/-- The interval of overlapping iterations is the one that is recorded, and one at least. -/
theorem usableInterval_cyclic_eq_ok_iff :
    problem.usableInterval recorded .cyclic = .ok interval ↔
      recorded = some interval ∧ 1 ≤ interval := by
  -- The check asks for an interval and that it is at least 1, in this order.
  cases recorded with
  | none => simp [usableInterval]
  | some length =>
    simp only [usableInterval, Option.some.injEq]
    split
    · simp only [reduceCtorEq, false_iff, not_and]
      omega
    · simp only [Except.ok.injEq]
      omega

/-- Starts that respect what the variant asks for pass the check. -/
theorem Respects.checkSchedule (respects : problem.Respects starts interval)
    (wellFormed : problem.WellFormed) (fits : problem.Fits variant)
    (usable : variant = .cyclic → 1 ≤ interval ∧ recorded = some interval)
    (within : variant = .sharedOperators → problem.WithinLimits starts) :
    problem.checkSchedule starts.known recorded variant = .ok () := by
  refine (wellFormed.checkSchedule_eq_ok_iff (gives_known respects.names)).mpr ?_
  -- Only the cyclic variant looks at the interval, and only there does it matter.
  by_cases cyclic : variant = .cyclic
  · obtain ⟨positive, same⟩ := usable cyclic
    refine ⟨interval, ?_, respects, within⟩
    rw [cyclic]
    exact usableInterval_cyclic_eq_ok_iff.mpr ⟨same, positive⟩
  · refine ⟨0, by cases variant <;> simp_all [usableInterval], ⟨respects.names, respects.nonneg,
      fun dependence member => ?_⟩, within⟩
    have single := (fits dependence member).resolve_right cyclic
    simpa [single] using respects.ordered dependence member

/-- Starts that respect the dependences pass the check of limits just when they are within them. -/
theorem Respects.checkSchedule_eq_ok_iff (respects : problem.Respects starts 0)
    (wellFormed : problem.WellFormed) :
    problem.checkSchedule starts.known none .sharedOperators = .ok () ↔
      problem.WithinLimits starts := by
  -- There is no interval to ask for, and the dependences hold already.
  rw [wellFormed.checkSchedule_eq_ok_iff (gives_known respects.names)]
  constructor
  · rintro ⟨_, _, _, within⟩
    exact within rfl
  · exact fun within => ⟨0, rfl, respects, fun _ => within⟩

end Passing

/-- What passes the check is confirmed. -/
theorem confirm_ok {known : NameTable (Option Int)} {recorded : Option Int}
    (checked : problem.checkSchedule known recorded variant = .ok ()) :
    problem.confirm known recorded variant = .ok () := by
  rw [confirm, checked]

end CycleSchedule.Problem
