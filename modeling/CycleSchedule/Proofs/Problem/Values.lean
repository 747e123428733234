import CycleSchedule.Graph.Recurrence
import CycleSchedule.Proofs.Problem.WellFormed
import CycleSchedule.Proofs.Reservation

/-! Quantities are registered as values and calculated with as numbers of every kind. Where all of
them are whole, every calculation comes out as it does over integers. -/

namespace CycleSchedule

namespace Number

/-- As a number an integer is whole. -/
@[simp] theorem ofInt_eq (n : Int) : (Measure.ofInt n : Number) = whole n := rfl

/-- Whole numbers add as integers do. -/
@[simp] theorem whole_add (m n : Int) : whole m + whole n = whole (m + n) := rfl

/-- Whole numbers subtract as integers do. -/
@[simp] theorem whole_sub (m n : Int) : whole m - whole n = whole (m - n) := rfl

/-- Whole numbers multiply as integers do. -/
@[simp] theorem whole_mul (m n : Int) : whole m * whole n = whole (m * n) := rfl

/-- Whole numbers lie among the finite ones, each at its own value. -/
@[simp] theorem whole_lt_iff {m n : Int} : whole m < whole n ↔ m < n := by
  change isLess (whole m) (whole n) = true ↔ m < n
  simp [isLess, position?, whole?]

/-- Whole numbers compare as integers do. -/
@[simp] theorem whole_le_iff {m n : Int} : whole m ≤ whole n ↔ m ≤ n := by
  change isAtMost (whole m) (whole n) = true ↔ m ≤ n
  simp [isAtMost, position?, whole?]

/-- The later of two whole numbers is that of the integers. -/
@[simp] theorem later_whole (m n : Int) :
    Measure.later (whole m) (whole n) = whole (Measure.later m n) := by
  unfold Measure.later
  -- The greater of the two is the same one for either order.
  by_cases less : m < n
  · rw [if_pos less, if_pos (whole_lt_iff.mpr less)]
  · rw [if_neg less, if_neg (mt whole_lt_iff.mp less)]

/-- A whole number reads as its integer. -/
@[simp] theorem whole?_whole (n : Int) : Measure.whole? (whole n) = some n := rfl

/-- A whole number is a number already. -/
@[simp] theorem number_whole (n : Int) : Measure.number (whole n) = whole n := rfl

end Number

namespace Problem

/-- An integer that a document holds measures as a whole number. -/
@[simp] theorem measured_value (n : Int) :
    (measured (Value.int n) : Except Fault Number) = .ok (.whole n) := rfl

variable {problem : Problem Int} {starts : NameTable Int} {interval : Int}

/-- Operator types are found by name alike, whatever form their quantities have. -/
theorem operatorType?_values (name : String) :
    problem.values.operatorType? name = (problem.operatorType? name).map (·.values) := by
  -- A type keeps its name, so the same one is the first of that name.
  simp only [operatorType?, values, List.find?_map]
  rfl

/-- The type of an operation is the same in both forms. -/
theorem operatorTypeOf_values (operation : Operation) :
    problem.values.operatorTypeOf operation =
      OperatorType.values <$> problem.operatorTypeOf operation := by
  simp only [operatorTypeOf, operatorType?_values]
  cases problem.operatorType? operation.operatorType <;> rfl

/-- The latency of an operation is the same in both forms. -/
theorem latencyNamed_values (name : String) :
    problem.values.latencyNamed name = Value.int <$> problem.latencyNamed name := by
  -- The operations are the same ones, and each type has the same latency as a value.
  have operation : problem.values.operationNamed name = problem.operationNamed name := rfl
  simp only [latencyNamed, operation, operatorTypeOf_values, bind_map_left, map_bind]
  rfl

/-- A dependence is judged alike, and reported alike where it does not hold. -/
theorem checkDependence_values (dependence : Dependence Int) :
    problem.values.checkDependence starts interval dependence.values =
      problem.checkDependence starts interval dependence := by
  have source : dependence.values.source = dependence.source := rfl
  have destination : dependence.values.destination = dependence.destination := rfl
  have distance : dependence.values.distance = .int dependence.distance := rfl
  simp only [checkDependence, latencyNamed_values, source, destination, distance,
    bind_map_left]
  -- The same starts and the same latency are read, or the same fault comes up.
  refine bind_congr fun sourceStart => bind_congr fun latency => ?_
  simp only [measured_value, measured_int, ok_bind]
  refine bind_congr fun start => ?_
  -- What is available is the same number, and is compared with the start in the same way.
  simp only [Number.ofInt_eq, Number.whole_mul, Number.whole_add, Number.whole_sub,
    Number.whole_lt_iff, Number.number_whole]
  rfl

/-- A window is as wide in both forms. -/
theorem windowWidth_values (operatorType : OperatorType Int) :
    windowWidth operatorType.values = windowWidth operatorType := by
  have latency : operatorType.values.latency = .int operatorType.latency := rfl
  -- Zero cycles count as one, whether the latency is a value or a number.
  simp only [windowWidth, heldCycles, latency, measured_value, measured_int, ok_bind, pure_eq_ok,
    Number.ofInt_eq, Number.later_whole, Number.whole?_whole]
  rfl

/-- A limit is judged alike, and reported alike where it is exceeded. -/
theorem checkLimit_values (operatorType : OperatorType Int) :
    problem.values.checkLimit starts operatorType.values =
      problem.checkLimit starts operatorType := by
  obtain ⟨name, latency, limit⟩ := operatorType
  cases limit with
  | none => rfl
  | some limit =>
    have width := windowWidth_values ⟨name, latency, some limit⟩
    simp only [checkLimit, OperatorType.values, Option.map_some] at width ⊢
    -- The same operations are of the type, and they hold its instances for as long.
    refine bind_congr fun used => ?_
    rw [width]
    -- A type that no operation uses passes in both; else the same numbers are compared.
    split
    · rfl
    · refine bind_congr fun width => ?_
      simp only [measured_value, measured_int, ok_bind, Number.ofInt_eq, ofInt_int,
        Number.whole_lt_iff]
      rfl

/-- Candidates pass the check alike, and fail it with the same fault, whether quantities are read as
registered or as whole numbers. -/
theorem checkSchedule_values (given : NameTable (Option Int)) (recorded : Option Int)
    (variant : Variant) :
    problem.values.checkSchedule given recorded variant =
      problem.checkSchedule given recorded variant := by
  -- What is left to compare are the checks of all dependences and those of all limits.
  have dependences : problem.values.dependences = problem.dependences.map (·.values) := rfl
  have types : problem.values.operatorTypes = problem.operatorTypes.map (·.values) := rfl
  simp only [checkSchedule, dependences, types, List.forM_eq_forM, List.forM_map,
    checkDependence_values, checkLimit_values]
  rfl

end Problem

end CycleSchedule
