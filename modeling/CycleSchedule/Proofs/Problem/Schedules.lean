import CycleSchedule.Proofs.Phrase
import CycleSchedule.Proofs.Problem.Sweep
import CycleSchedule.Proofs.Problem.Values

/-! The check of schedules accepts the valid ones and no others, and what it refuses it refuses as
an invalid schedule: on a checked problem nothing else can go wrong in it. -/

namespace CycleSchedule

/-- The cycle at which candidates start an operation, zero if they do not say. -/
def startAt (given : NameTable (Option Int)) (name : String) : Int :=
  ((given.get? name).join).getD 0

/-- The cycles from one iteration to the next, of which there is none but for the cyclic variant. -/
def period (recorded : Option Int) : Variant → Int
  | .cyclic => recorded.getD 0
  | _ => 0

namespace Problem

variable {problem : Problem Int} {given : NameTable (Option Int)} {recorded : Option Int}
  {variant : Variant} {starts : NameTable Int} {interval : Int}

/-- What makes candidates a schedule: every operation has a start, none of them negative; iterations
that overlap follow each other; all results are there when they are needed, those of earlier
iterations by so many periods sooner; and if operators are shared, no cycle sees more operations of
a type at work than the type has instances. -/
structure Valid (problem : Problem Int) (given : NameTable (Option Int)) (recorded : Option Int)
    (variant : Variant) : Prop where
  started : ∀ name ∈ problem.operationNames,
    ∃ start, given.get? name = some (some start) ∧ 0 ≤ start
  repeats : variant = .cyclic → ∃ length, recorded = some length ∧ 1 ≤ length
  ordered : ∀ dependence ∈ problem.dependences,
    startAt given dependence.source + problem.latencyOf dependence.source -
        period recorded variant * dependence.distance ≤
      startAt given dependence.destination
  limited : variant = .sharedOperators → ∀ operatorType ∈ problem.operatorTypes,
    ∀ limit, operatorType.limit = some limit → ∀ cycle : Int,
      (((problem.operationsOfType operatorType.name).countP fun operation =>
        startAt given operation.name ≤ cycle &&
          cycle < startAt given operation.name + max operatorType.latency 1 : Nat) : Int) ≤ limit

/-- The table of the starts that candidates give. -/
def startTable (problem : Problem Int) (given : NameTable (Option Int)) : NameTable Int :=
  problem.operationNames.map fun name => (name, startAt given name)

/-- A map with a start for each operation gives the table of these starts. -/
theorem gives_startTable
    (started : ∀ name ∈ problem.operationNames, ∃ start, given.get? name = some (some start)) :
    problem.Gives given (problem.startTable given) := by
  refine ⟨NameTable.names_map_pair _ _, fun name known => ?_⟩
  -- Under each name the table holds what the map holds there.
  obtain ⟨start, found⟩ := started name known
  rw [startTable, NameTable.valueAt_map_pair _ known, startAt, found]
  rfl

/-- The interval is usable unless iterations overlap without one that is recorded. -/
theorem usableInterval_eq_ok_iff :
    problem.usableInterval recorded variant = .ok interval ↔
      (variant = .cyclic → ∃ length, recorded = some length ∧ 1 ≤ length) ∧
        interval = period recorded variant := by
  cases variant with
  | basic => simp [usableInterval, period, eq_comm]
  | sharedOperators => simp [usableInterval, period, eq_comm]
  | cyclic =>
    rw [usableInterval_cyclic_eq_ok_iff]
    -- What is recorded is the period, provided that it is one at least.
    constructor
    · rintro ⟨rfl, positive⟩
      exact ⟨fun _ => ⟨interval, rfl, positive⟩, rfl⟩
    · rintro ⟨repeats, rfl⟩
      obtain ⟨length, rfl, positive⟩ := repeats rfl
      exact ⟨rfl, positive⟩

/-- Candidates are within the limits just when their table is. -/
theorem withinLimits_startTable_iff :
    problem.WithinLimits (problem.startTable given) ↔
      ∀ operatorType ∈ problem.operatorTypes, ∀ limit, operatorType.limit = some limit →
        ∀ cycle : Int, (((problem.operationsOfType operatorType.name).countP fun operation =>
          startAt given operation.name ≤ cycle &&
            cycle < startAt given operation.name + max operatorType.latency 1 : Nat) : Int) ≤
              limit := by
  -- The operations of a type have the same starts in the table.
  have same (operatorType : OperatorType Int) (cycle : Int) :
      problem.busy (problem.startTable given) operatorType cycle =
        (problem.operationsOfType operatorType.name).countP fun operation =>
          startAt given operation.name ≤ cycle &&
            cycle < startAt given operation.name + max operatorType.latency 1 := by
    refine List.countP_congr fun operation member => ?_
    have known := mem_operationNames (List.mem_filter.mp member).1
    rw [startTable, NameTable.valueAt_map_pair _ known]
  simp only [WithinLimits, same]

/-- Candidates pass the check just when they are a valid schedule. -/
theorem WellFormed.checkSchedule_eq_ok_iff_valid (wellFormed : problem.WellFormed) :
    problem.checkSchedule given recorded variant = .ok () ↔
      problem.Valid given recorded variant := by
  constructor
  · intro passed
    obtain ⟨starts, interval, gives, usable, respects, within⟩ :=
      wellFormed.respects_of_checkSchedule passed
    obtain ⟨repeats, rfl⟩ := usableInterval_eq_ok_iff.mp usable
    -- The starts that have passed are those of the table of what was given.
    have started : ∀ name ∈ problem.operationNames,
        ∃ start, given.get? name = some (some start) := fun name known =>
      ⟨_, gives.same name known⟩
    obtain rfl := gives.unique (gives_startTable started) wellFormed
    obtain ⟨_, ordered⟩ := wellFormed.respects_map_pair_iff.mp respects
    refine ⟨fun name known => ?_, repeats, fun dependence member => ?_, fun shared =>
      withinLimits_startTable_iff.mp (within shared)⟩
    · exact ⟨_, gives.same name known, respects.nonneg name known⟩
    · have inTime := ordered dependence member
      omega
  · intro valid
    -- The starts that are valid are complete, so they make a table.
    have gives : problem.Gives given (problem.startTable given) :=
      gives_startTable fun name known => (valid.started name known).imp fun _ both => both.1
    refine (wellFormed.checkSchedule_eq_ok_iff gives).mpr ⟨period recorded variant,
      usableInterval_eq_ok_iff.mpr ⟨valid.repeats, rfl⟩,
      wellFormed.respects_map_pair_iff.mpr ⟨fun name known => ?_, fun dependence member => ?_⟩,
      fun shared => withinLimits_startTable_iff.mpr (valid.limited shared)⟩
    · obtain ⟨start, found, nonneg⟩ := valid.started name known
      simpa [startAt, found] using nonneg
    · have inTime := valid.ordered dependence member
      omega

/-- A fault that reports an invalid schedule. -/
def ReportsDefect (fault : Fault) : Prop := ∃ defect, fault = .invalidSchedule defect

/-- An incomplete map is refused with a defect and in no other way. -/
theorem failsOnly_completeStarts : FailsOnly ReportsDefect (problem.completeStarts given) := by
  refine failsOnly_mapM fun operation _ => ?_
  -- A start is missing, or it is negative, or it is fine.
  split
  · exact failsOnly_error ⟨_, rfl⟩
  · split
    · exact failsOnly_error ⟨_, rfl⟩
    · exact failsOnly_ok _

/-- An interval that cannot be used is refused with a defect and in no other way. -/
theorem failsOnly_usableInterval :
    FailsOnly ReportsDefect (problem.usableInterval recorded variant) := by
  -- Only a cyclic schedule without an interval, or with one below 1, is refused.
  unfold usableInterval
  split
  · split
    · exact failsOnly_error ⟨_, rfl⟩
    · exact failsOnly_ok _
  · exact failsOnly_error ⟨_, rfl⟩
  · exact failsOnly_ok _

/-- A registered dependence is refused with a defect and in no other way. -/
theorem WellFormed.failsOnly_checkDependence (wellFormed : problem.WellFormed)
    (names : starts.names = problem.operationNames) {dependence : Dependence Int}
    (member : dependence ∈ problem.dependences) :
    FailsOnly ReportsDefect (problem.checkDependence starts interval dependence) := by
  obtain ⟨source, destination⟩ := wellFormed.endpoints dependence member
  -- Both starts and the latency are found, so what is left is the comparison.
  simp only [Problem.checkDependence, startOf_ok names source, startOf_ok names destination,
    wellFormed.latencyNamed source, ok_bind, measured_int]
  split
  · exact failsOnly_error ⟨_, rfl⟩
  · exact failsOnly_ok _

/-- A crowded cycle is refused with a defect and in no other way. -/
theorem failsOnly_checkLimit (names : starts.names = problem.operationNames)
    (operatorType : OperatorType Int) :
    FailsOnly ReportsDefect (problem.checkLimit starts operatorType) := by
  unfold checkLimit
  split
  · exact failsOnly_ok _
  · -- The starts of all operations of the type are found.
    have used : FailsOnly ReportsDefect (problem.startsOfType starts operatorType.name) := by
      -- Names of operations are found in the table, so no look-up fails.
      refine failsOnly_mapM fun operation member => ?_
      rw [startOf_ok names (mem_operationNames (List.mem_filter.mp member).1)]
      exact failsOnly_ok _
    refine used.bind fun used _ => ?_
    -- What is left of the check either passes or reports the first excess.
    split
    · exact failsOnly_ok _
    · simp only [windowWidth_int, measured_int, ok_bind]
      split
      · exact failsOnly_error ⟨_, rfl⟩
      · exact failsOnly_ok _

/-- On a well-formed problem the check reports nothing but what is wrong with the schedule. -/
theorem WellFormed.failsOnly_checkSchedule (wellFormed : problem.WellFormed) :
    FailsOnly ReportsDefect (problem.checkSchedule given recorded variant) := by
  refine failsOnly_completeStarts.bind fun starts complete => ?_
  -- Once the starts are complete, everything is found that is looked up.
  have names := (gives_of_completeStarts complete).1.names
  refine failsOnly_usableInterval.bind fun interval _ => ?_
  refine (failsOnly_forM fun dependence member =>
    wellFormed.failsOnly_checkDependence names member).bind fun _ _ => ?_
  split
  · exact failsOnly_forM fun operatorType _ => failsOnly_checkLimit names operatorType
  · exact failsOnly_ok _

/-- What the check does not accept it reports as an invalid schedule. -/
theorem WellFormed.exists_defect (wellFormed : problem.WellFormed)
    (refused : problem.checkSchedule given recorded variant ≠ .ok ()) :
    ∃ defect, problem.checkSchedule given recorded variant = .error (.invalidSchedule defect) := by
  -- If it is refused at all, it is for a defect.
  cases outcome : problem.checkSchedule given recorded variant with
  | ok _ => exact absurd outcome refused
  | error fault =>
    obtain ⟨defect, rfl⟩ := wellFormed.failsOnly_checkSchedule fault outcome
    exact ⟨defect, rfl⟩

/-- Two products and one multiplier for both. -/
def twins : Problem Int :=
  ⟨"twins", [⟨"multiplier", 2, some 1⟩],
    [⟨"left", "multiplier", none⟩, ⟨"right", "multiplier", none⟩], [], none⟩

/-- The twins pass the check for shared operators. -/
theorem check_twins : twins.values.check (some .sharedOperators) = .ok () := by
  refine check_values_iff.mpr ⟨⟨?_, ?_, ?_, ?_, ?_, ?_, ?_⟩, ?_⟩ <;>
    simp [twins, operationNames, Fits]

end Problem

/-- On every problem that has passed the check of registrations, the check of schedules accepts the
valid schedules of a variant and no other candidates. Whatever it does not accept it refuses for a
defect of the schedule, and it reports the invalid schedule if the message about it can be written.
Limits that are exceeded are found cycle by cycle. -/
theorem checkSchedule_is_exact {problem : Problem Value} {choice : Option Variant}
    (checked : problem.check choice = .ok ()) (given : NameTable (Option Int))
    (recorded : Option Int) (variant : Variant) :
    ∃ task : Problem Int, problem.whole = .ok task ∧
      problem.checkSchedule given recorded variant =
        task.sweepSchedule given recorded variant ∧
      (reported (problem.checkSchedule given recorded variant) = .ok () ↔
        task.Valid given recorded variant) ∧
      (¬task.Valid given recorded variant →
        ∃ defect, reported (problem.checkSchedule given recorded variant) =
          if defect.message.isWritable then .error (.invalidSchedule defect)
          else .error .unwritable) := by
  obtain ⟨task, rfl, wellFormed, _⟩ := Problem.exists_values_of_check checked
  have accepts : task.checkSchedule given recorded variant = .ok () ↔
      task.Valid given recorded variant :=
    wellFormed.checkSchedule_eq_ok_iff_valid
  rw [Problem.checkSchedule_values]
  refine ⟨task, task.whole_values, (task.sweepSchedule_eq_checkSchedule _ _ _).symm,
    reported_eq_ok_iff.trans accepts, fun invalid => ?_⟩
  -- What is not accepted fails, and fails with a defect of the schedule.
  obtain ⟨defect, refused⟩ := wellFormed.exists_defect (mt accepts.mp invalid)
  exact ⟨defect, by rw [refused, reported_error_eq]; rfl⟩

/-- Two products of two cycles each cannot start one cycle apart on one multiplier. -/
theorem overlapping_twins_refused :
    Problem.twins.values.check (some .sharedOperators) = .ok () ∧
    ∃ defect, reported (Problem.twins.values.checkSchedule [("left", some 0), ("right", some 1)]
      none .sharedOperators) =
        if defect.message.isWritable then .error (.invalidSchedule defect)
        else .error .unwritable := by
  obtain ⟨task, whole, _, _, refused⟩ :=
    checkSchedule_is_exact Problem.check_twins [("left", some 0), ("right", some 1)] none
      .sharedOperators
  obtain rfl := Except.ok.inj (Problem.twins.whole_values.symm.trans whole)
  refine ⟨Problem.check_twins, refused fun valid => ?_⟩
  -- Both of them are at work in the second cycle.
  have within := valid.limited rfl ⟨"multiplier", 2, some 1⟩ (by simp [Problem.twins]) 1 rfl 1
  revert within
  decide

/-- The first start that is negative is what is wrong with a schedule. -/
theorem Problem.checkSchedule_twins {start : Int} (negative : start < 0) :
    Problem.twins.values.checkSchedule [("left", some start), ("right", some 0)] none
      .sharedOperators = .error (.invalidSchedule (.negativeStart "left" start)) := by
  -- The first operation of the two is the one that starts too early, so the check ends with it.
  have found : NameTable.get? [("left", some start), ("right", some 0)] "left" =
      some (some start) := rfl
  rw [checkSchedule_values, checkSchedule, completeStarts, twins, List.mapM_cons, found]
  simp only [Option.join_some, if_pos negative]
  rfl

/-- A start that is negative and has too many digits is refused, but not as an invalid schedule. -/
theorem overlong_start_not_reported :
    Problem.twins.values.check (some .sharedOperators) = .ok () ∧
      reported (Problem.twins.values.checkSchedule
        [("left", some (-Text.leastUnwritable)), ("right", some 0)] none .sharedOperators) =
          .error .unwritable := by
  refine ⟨Problem.check_twins, ?_⟩
  -- The start that is refused is too long for the message that refuses it.
  rw [Problem.checkSchedule_twins (by decide +kernel), reported_error_eq,
    if_neg (by decide +kernel)]

end CycleSchedule
