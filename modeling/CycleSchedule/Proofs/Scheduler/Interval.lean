import CycleSchedule.Proofs.Graph.Demand
import CycleSchedule.Proofs.Problem.Validity
import CycleSchedule.Proofs.Scheduler.Solution
import CycleSchedule.Scheduler.Cyclic

/-! Overlapping iterations: an interval does if some start times are valid for it; either some
interval does, or a cycle within one iteration takes time; the program of a problem has the
intervals that do for its points. -/

namespace CycleSchedule

namespace Problem

open LinearProgram

variable {problem : Problem Int} {last : String}

/-- Starts and an interval at which all results are there that are needed, those of earlier
iterations included. -/
structure Overlaps (problem : Problem Int) (x : String → Rat) (interval : Rat) : Prop where
  nonneg : ∀ name ∈ problem.operationNames, 0 ≤ x name
  positive : 1 ≤ interval
  ordered : ∀ dependence ∈ problem.dependences,
    x dependence.source + problem.latencyOf dependence.source ≤
      x dependence.destination + interval * dependence.distance

/-- A longer interval does as well. -/
theorem Overlaps.mono {x : String → Rat} {interval longer : Rat}
    (overlaps : problem.Overlaps x interval) (wellFormed : problem.WellFormed)
    (le : interval ≤ longer) : problem.Overlaps x longer where
  nonneg := overlaps.nonneg
  positive := overlaps.positive.trans le
  ordered dependence member := by
    have ordered := overlaps.ordered dependence member
    -- No distance is negative, so a longer interval leaves more time.
    have distance : (0 : Rat) ≤ dependence.distance := by
      exact_mod_cast wellFormed.distances dependence member
    have more := mul_le_mul_of_nonneg_right le distance
    linarith

/-- The whole intervals that do. -/
def Intervals (problem : Problem Int) : Set Int := {interval | ∃ x, problem.Overlaps x interval}

/-- An interval that does is at least one cycle long. -/
theorem one_le_of_mem_intervals {interval : Int} (does : interval ∈ problem.Intervals) :
    1 ≤ interval := by
  obtain ⟨_, overlaps⟩ := does
  exact_mod_cast overlaps.positive

/-- The lesser of starts that do with the same interval do as well. -/
theorem Overlaps.inf {x y : String → Rat} {interval : Rat}
    (first : problem.Overlaps x interval) (second : problem.Overlaps y interval) :
    problem.Overlaps (x ⊓ y) interval where
  nonneg name known := le_inf (first.nonneg name known) (second.nonneg name known)
  positive := first.positive
  ordered dependence member := by
    -- The lesser of two destinations is at one of them, and there the source ends in time.
    rw [Pi.inf_apply, Pi.inf_apply, ← min_add_add_right, ← min_add_add_right]
    exact inf_le_inf (first.ordered dependence member) (second.ordered dependence member)

/-- Whole starts that respect the dependences do as rational ones. -/
theorem Respects.overlaps {starts : NameTable Int} {interval : Int}
    (respects : problem.Respects starts interval) (positive : 1 ≤ interval) :
    problem.Overlaps (fun name => starts.valueAt name) interval where
  nonneg name known := by exact_mod_cast respects.nonneg name known
  positive := by exact_mod_cast positive
  ordered dependence member := by exact_mod_cast respects.ordered dependence member

/-- Rational starts that do with a whole interval can be rounded down. -/
theorem Overlaps.respects_floor {x : String → Rat} {interval : Int}
    (overlaps : problem.Overlaps x interval) (wellFormed : problem.WellFormed) :
    problem.Respects (problem.operationNames.map fun name => (name, ⌊x name⌋)) interval := by
  refine wellFormed.respects_map_pair_iff.mpr
    ⟨fun name known => Int.floor_nonneg.mpr (overlaps.nonneg name known),
      fun dependence member => ?_⟩
  -- Latency and distance are whole, so rounding takes off of the starts only.
  have rounded := Int.floor_mono (overlaps.ordered dependence member)
  rwa [← Int.cast_mul, Int.floor_add_intCast, Int.floor_add_intCast] at rounded

/-- What passes the check gives starts that do with the interval. -/
theorem WellFormed.overlaps_of_checkSchedule (wellFormed : problem.WellFormed) {interval : Int}
    {given : NameTable (Option Int)}
    (passed : problem.checkSchedule given (some interval) .cyclic = .ok ()) :
    ∃ starts, problem.Gives given starts ∧
      problem.Overlaps (fun name => starts.valueAt name) interval := by
  obtain ⟨starts, length, gives, usable, respects, _⟩ :=
    wellFormed.respects_of_checkSchedule passed
  obtain ⟨same, positive⟩ := usableInterval_cyclic_eq_ok_iff.mp usable
  -- Only a cyclic check uses an interval, and it is the one that was given.
  obtain rfl := Option.some.inj same
  exact ⟨starts, gives, respects.overlaps positive⟩

/-- An interval does just when some start times pass the check with it. -/
theorem WellFormed.mem_intervals_iff_checkSchedule (wellFormed : problem.WellFormed)
    {interval : Int} : interval ∈ problem.Intervals ↔
      ∃ given, problem.checkSchedule given (some interval) .cyclic = .ok () := by
  constructor
  · rintro ⟨x, overlaps⟩
    have positive : 1 ≤ interval := by exact_mod_cast overlaps.positive
    -- The starts are rounded down, and every problem fits the cyclic variant.
    exact ⟨_, (overlaps.respects_floor wellFormed).checkSchedule wellFormed
      (fun _ _ => Or.inr rfl) (fun _ => ⟨positive, rfl⟩) (by simp)⟩
  · rintro ⟨given, passed⟩
    obtain ⟨starts, _, overlaps⟩ := wellFormed.overlaps_of_checkSchedule passed
    exact ⟨_, overlaps⟩

/-- The latencies of the operations that a walk leaves. -/
def duration (problem : Problem Int) (walk : List (Dependence Int)) : Int :=
  weight (fun dependence => problem.latencyOf dependence.source) walk

/-- A cycle within one iteration that takes time, which no interval can make up for. -/
def Recurs (problem : Problem Int) : Prop :=
  ∃ cycle, Cycle (problem.dependences.filter fun dependence => dependence.distance = 0) cycle ∧
    0 < problem.duration cycle

/-- The dependences within one iteration are those of distance 0. -/
theorem mem_zeroDistance {dependence : Dependence Int} :
    dependence ∈ problem.dependences.filter (fun dependence => dependence.distance = 0) ↔
      dependence ∈ problem.dependences ∧ dependence.distance = 0 := by
  simp

/-- With an interval that does, no cycle within one iteration takes time. -/
theorem Overlaps.not_recurs {x : String → Rat} {interval : Rat}
    (overlaps : problem.Overlaps x interval) : ¬problem.Recurs := by
  rintro ⟨cycle, isCycle, positive⟩
  -- Starts rise by the latencies where there is no distance.
  refine absurd (isCycle.weight_nonpos x fun dependence member => ?_) (not_le.mpr positive)
  obtain ⟨known, zero⟩ := mem_zeroDistance.mp member
  simpa [zero] using overlaps.ordered dependence known

/-- If no cycle within one iteration takes time, a long interval does. -/
theorem WellFormed.exists_overlaps (wellFormed : problem.WellFormed) (free : ¬problem.Recurs) :
    ∃ x interval, problem.Overlaps x interval := by
  -- Levels of the dependences within one iteration become the starts.
  obtain ⟨level, nonneg, rises⟩ := exists_levels (fun cycle isCycle => not_lt.mp fun positive =>
    free ⟨cycle, isCycle, positive⟩ : ∀ cycle, Cycle (problem.dependences.filter fun dependence =>
      dependence.distance = 0) cycle →
        weight (fun dependence => problem.latencyOf dependence.source) cycle ≤ 0)
  -- One interval leaves time for any result, so a distance of one is enough.
  let ready (dependence : Dependence Int) : Int :=
    level dependence.source + problem.latencyOf dependence.source
  have readyNonneg (dependence : Dependence Int) : 0 ≤ ready dependence :=
    add_nonneg (nonneg _) (wellFormed.latencyOf_nonneg _)
  let interval : Int := 1 + (problem.dependences.map ready).sum
  have total : 0 ≤ (problem.dependences.map ready).sum := List.sum_nonneg fun size member => by
    obtain ⟨dependence, _, rfl⟩ := List.mem_map.mp member
    exact readyNonneg dependence
  have enough {dependence : Dependence Int} (member : dependence ∈ problem.dependences) :
      ready dependence ≤ (problem.dependences.map ready).sum := by
    refine List.single_le_sum (fun size inside => ?_) _ (List.mem_map_of_mem member)
    obtain ⟨other, _, rfl⟩ := List.mem_map.mp inside
    exact readyNonneg other
  refine ⟨fun name => level name, interval, fun name _ => by exact_mod_cast nonneg name,
    by exact_mod_cast (show (1 : Int) ≤ interval by omega), fun dependence member => ?_⟩
  have ordered :
      ready dependence ≤ level dependence.destination + interval * dependence.distance := by
    -- Within one iteration the levels rise, and to a later one there is time enough.
    rcases (wellFormed.distances dependence member).eq_or_lt with zero | later
    · rw [← zero, mul_zero, add_zero]
      exact rises dependence (mem_zeroDistance.mpr ⟨member, zero.symm⟩)
    · have least : interval ≤ interval * dependence.distance :=
        le_mul_of_one_le_right (by omega) later
      have there := nonneg dependence.destination
      have short := enough member
      omega
  exact_mod_cast ordered

/-- The intervals that do, whole or not. -/
def RelaxedIntervals (problem : Problem Int) : Set Rat :=
  {interval | ∃ x, problem.Overlaps x interval}

/-- How many iterations later the result of a walk is used. -/
def reach (walk : List (Dependence Int)) : Int := weight (·.distance) walk

/-- What a dependence asks for beyond an interval, as a multiple of the interval's denominator. -/
def lack (problem : Problem Int) (interval : Rat) (dependence : Dependence Int) : Int :=
  interval.den * problem.latencyOf dependence.source - interval.num * dependence.distance

/-- Times the denominator of an interval everything is whole. -/
private theorem cast_den_mul_sub (interval : Rat) (latency distance : Int) :
    ((interval.den * latency - interval.num * distance : Int) : Rat) =
      interval.den * (latency - interval * distance) := by
  push_cast
  rw [← Rat.mul_den_eq_num interval]
  ring

/-- A walk takes no longer than its iterations last if its dependences lack nothing together. -/
theorem weight_lack_nonpos_iff {interval : Rat} {walk : List (Dependence Int)} :
    weight (problem.lack interval) walk ≤ 0 ↔
      (problem.duration walk : Rat) ≤ interval * reach walk := by
  have den : (0 : Rat) < interval.den := by exact_mod_cast interval.pos
  -- What the walk lacks is the difference of the two sides, times the denominator.
  have total : weight (problem.lack interval) walk =
      interval.den * problem.duration walk - interval.num * reach walk :=
    weight_sub_mul _ _ _ _ walk
  have scaled : (weight (problem.lack interval) walk : Rat) =
      interval.den * (problem.duration walk - interval * reach walk) := by
    rw [total, cast_den_mul_sub]
  -- The denominator is positive, so both signs are the same.
  constructor
  · intro light
    have cast : (weight (problem.lack interval) walk : Rat) ≤ 0 := by exact_mod_cast light
    rw [scaled] at cast
    exact sub_nonpos.mp (nonpos_of_mul_nonpos_right cast den)
  · intro short
    have cast : (weight (problem.lack interval) walk : Rat) ≤ 0 := by
      rw [scaled]
      exact mul_nonpos_of_nonneg_of_nonpos den.le (sub_nonpos.mpr short)
    exact_mod_cast cast

/-- An interval does if no cycle takes longer than its iterations last, and not otherwise. -/
theorem mem_relaxedIntervals_iff {interval : Rat} :
    interval ∈ problem.RelaxedIntervals ↔ 1 ≤ interval ∧
      ∀ cycle, Cycle problem.dependences cycle →
        (problem.duration cycle : Rat) ≤ interval * reach cycle := by
  have den : (0 : Rat) < interval.den := by exact_mod_cast interval.pos
  constructor
  · rintro ⟨x, overlaps⟩
    refine ⟨overlaps.positive, fun cycle isCycle => weight_lack_nonpos_iff.mp ?_⟩
    -- Times the denominator the starts rise by what the dependences ask for.
    apply isCycle.weight_nonpos fun name => interval.den * x name
    intro dependence member
    have ordered := mul_le_mul_of_nonneg_left (overlaps.ordered dependence member) den.le
    rw [lack, cast_den_mul_sub]
    linarith
  · rintro ⟨positive, enough⟩
    -- Levels that meet all demands become the starts, over the denominator.
    obtain ⟨level, nonneg, rises⟩ := exists_levels fun cycle isCycle =>
      weight_lack_nonpos_iff.mpr (enough cycle isCycle)
    refine ⟨fun name => level name / interval.den, fun name _ => ?_, positive,
      fun dependence member => ?_⟩
    · have start : (0 : Rat) ≤ level name := by exact_mod_cast nonneg name
      exact div_nonneg start den.le
    · have met : (level dependence.source : Rat) + problem.lack interval dependence ≤
          level dependence.destination := by exact_mod_cast rises dependence member
      rw [lack, cast_den_mul_sub] at met
      have divided := div_le_div_of_nonneg_right met den.le
      rw [add_div, mul_div_cancel_left₀ _ den.ne'] at divided
      linarith

/-- A whole interval does if no cycle of the graph asks for more than it gives, and not otherwise.
-/
theorem WellFormed.mem_intervals (wellFormed : problem.WellFormed) {interval : Int} :
    interval ∈ problem.Intervals ↔ 1 ≤ interval ∧ ¬(problem.graph false).Exceeds interval := by
  have edges : (problem.graph false).edges = problem.dependences := by simp [graph]
  -- The graph knows the latencies of all operations that a cycle leaves.
  have asked {cycle : List (Dependence Int)} (isCycle : Cycle problem.dependences cycle) :
      weight ((problem.graph false).demand interval) cycle =
        problem.duration cycle - interval * reach cycle := by
    rw [Graph.weight_demand, duration, reach, weight, weight, List.map_congr_left
      fun dependence member => latency_graph false
        (wellFormed.endpoints dependence (isCycle.within dependence member)).1]
    rfl
  have relaxed : interval ∈ problem.Intervals ↔ (interval : Rat) ∈ problem.RelaxedIntervals :=
    Iff.rfl
  rw [relaxed, mem_relaxedIntervals_iff, Graph.Exceeds, edges, not_exists]
  norm_cast
  -- It is left to compare what each cycle asks for.
  refine and_congr_right fun _ => forall_congr' fun cycle => ?_
  rw [not_and, not_lt]
  refine forall_congr' fun isCycle => ?_
  rw [asked isCycle, sub_nonpos]

/-- The variables of the starts and of the interval. -/
def cyclicUnknowns (problem : Problem Int) : List String :=
  problem.startUnknowns ++ [intervalVariable]

/-- The interval is a variable of the program. -/
theorem intervalVariable_mem : intervalVariable ∈ problem.cyclicUnknowns := by
  simp [cyclicUnknowns]

/-- The form that is the interval alone names a variable of the program. -/
theorem interval_known :
    ∀ term ∈ [(intervalVariable, (1 : Rat))], term.1 ∈ problem.cyclicUnknowns := by
  simp [intervalVariable_mem]

/-- The start variable of an operation is a variable of the program. -/
theorem mem_cyclicUnknowns {name : String} (known : name ∈ problem.operationNames) :
    startVariable name ∈ problem.cyclicUnknowns :=
  List.mem_append_left _ (mem_startUnknowns.mpr known)

/-- The form of a dependence compares two starts, the later one put off by the distance in
intervals. -/
theorem eval_cyclicForm (source destination : String) (distance : Rat) (x : String → Rat) :
    (cyclicForm source destination distance).eval x =
      x (startVariable destination) - x (startVariable source) + distance * x intervalVariable := by
  -- For a dependence of an operation on itself only the interval is left.
  unfold cyclicForm
  simp only
  split
  · rename_i same
    simp [same]
  · simp
    ring

/-- A dependence names the variables of its ends and of the interval only. -/
theorem cyclicForm_known {source destination : String} {distance : Rat}
    (sourceKnown : source ∈ problem.operationNames)
    (destinationKnown : destination ∈ problem.operationNames) :
    ∀ term ∈ cyclicForm source destination distance, term.1 ∈ problem.cyclicUnknowns := by
  unfold cyclicForm
  simp only
  -- Whether or not the starts cancel out, only these three variables are named.
  split <;> simp [intervalVariable_mem, mem_cyclicUnknowns sourceKnown,
    mem_cyclicUnknowns destinationKnown]

/-- The constraint of a dependence between iterations: its result must be there, as many intervals
later as its distance is. -/
def cyclicConstraint (problem : Problem Int) (dependence : Dependence Int) : Constraint :=
  ⟨(cyclicForm dependence.source dependence.destination dependence.distance).nonzero, .atLeast,
    problem.latencyOf dependence.source, dependence.text.spelled⟩

/-- The constraint of a dependence holds just when the source ends in time for the destination,
which is as many iterations later as the distance says. -/
theorem holds_cyclicConstraint {dependence : Dependence Int} {x : String → Rat} :
    (problem.cyclicConstraint dependence).Holds x ↔
      x (startVariable dependence.source) + problem.latencyOf dependence.source ≤
        x (startVariable dependence.destination) + x intervalVariable * dependence.distance := by
  rw [Constraint.Holds, cyclicConstraint, LinearForm.eval_nonzero, eval_cyclicForm, Relation.Holds,
    sub_add_eq_add_sub, le_sub_iff_add_le', mul_comm]

/-- An interval lasts one cycle at least. -/
def positiveInterval : Constraint :=
  ⟨LinearForm.nonzero [(intervalVariable, 1)], .atLeast, 1, "ii >= 1"⟩

/-- The constraint on the interval holds just when it is at least 1. -/
theorem holds_positiveInterval {x : String → Rat} :
    positiveInterval.Holds x ↔ 1 ≤ x intervalVariable := by
  simp [Constraint.Holds, positiveInterval, LinearForm.eval_nonzero, Relation.Holds]

/-- The program is what comes of putting it together. -/
@[simp] theorem outcome_narratedCyclicProgram {ν κ : Type} [Quantity ν κ] [Measure κ]
    (problem : Problem ν) : problem.narratedCyclicProgram.outcome = problem.cyclicProgram := rfl

/-- While the program is put together, the labels of the dependences are. -/
theorem events_narratedCyclicProgram {ν κ : Type} [Quantity ν κ] [Measure κ] {problem : Problem ν}
    {program : LinearProgram} (built : problem.cyclicProgram = .ok program) :
    problem.narratedCyclicProgram.events =
      problem.dependences.map fun dependence => .labelled dependence.text := by
  unfold cyclicProgram narratedCyclicProgram at built
  simp only [Narrated.outcome_bind, Narrated.outcome_lift, bind_eq_ok_iff] at built
  -- The variables and the bound on the interval are added without a message.
  obtain ⟨first, started, second, extended, third, bounded, rest⟩ := built
  unfold narratedCyclicProgram
  rw [started, Narrated.lift_ok_bind, extended, Narrated.lift_ok_bind, bounded,
    Narrated.lift_ok_bind]
  refine Narrated.events_foldlM _ (fun dependence _ before after step => ?_) rest
  -- Only the label is told of, after distance and latency have been found.
  simp only [Narrated.outcome_bind, Narrated.outcome_lift, Narrated.outcome_tell, ok_bind,
    bind_eq_ok_iff] at step
  obtain ⟨distance, measured, latency, found, _, known, factor, isFactor, bound, isBound, -⟩ := step
  rw [measured, Narrated.lift_ok_bind, found, Narrated.lift_ok_bind,
    Narrated.bind_of_ok (Narrated.outcome_tell _)]
  dsimp only
  rw [known, Narrated.lift_ok_bind, isFactor, Narrated.lift_ok_bind, isBound,
    Narrated.lift_ok_bind]
  rfl

/-- The labels show the distances, and the program is handed back if these can be written. -/
theorem told_cyclicProgram {program : LinearProgram} (built : problem.cyclicProgram = .ok program)
    (cutoff : Level) :
    (problem.narratedCyclicProgram.told cutoff).outcome =
      if ∀ dependence ∈ problem.dependences, Text.isWritable dependence.distance = true then
        .ok program
      else .error .unwritable := by
  -- As for any computation, the outcome stands if all events can be told of.
  have ends : (problem.narratedCyclicProgram.told cutoff).outcome = _ :=
    Narrated.endsAs_of_ok built
  simpa only [isTellable_labels (events_narratedCyclicProgram built)] using ends

/-- The program of a problem has a variable for each operation and one for the interval, and a
constraint for the interval and for each dependence. -/
theorem WellFormed.cyclicProgram_eq (wellFormed : problem.WellFormed) :
    problem.cyclicProgram = .ok ⟨problem.cyclicUnknowns,
      positiveInterval :: problem.dependences.map problem.cyclicConstraint, []⟩ := by
  have extended : LinearProgram.addVariable ⟨problem.startUnknowns, [], []⟩ intervalVariable =
      .ok ⟨problem.cyclicUnknowns, [], []⟩ :=
    addVariable_ok intervalVariable_not_mem
  have bounded : LinearProgram.addConstraint ⟨problem.cyclicUnknowns, [], []⟩
      [(intervalVariable, 1)] .atLeast 1 "ii >= 1" =
        .ok ⟨problem.cyclicUnknowns, [positiveInterval], []⟩ :=
    addConstraint_ok interval_known
  -- Labels are told of, which has no influence on the program.
  simp only [Problem.cyclicProgram, narratedCyclicProgram, Narrated.outcome_bind,
    Narrated.outcome_lift, Narrated.outcome_foldlM, Narrated.outcome_tell,
    wellFormed.startVariables_eq, ok_bind, extended, bounded]
  refine foldlM_addConstraint (fun dependence member constraints => ?_) [positiveInterval]
  -- The ends of the dependence are operations, so that they have variables and a latency.
  obtain ⟨source, destination⟩ := wellFormed.endpoints dependence member
  have known (distance : Rat) : ∀ term ∈ cyclicForm dependence.source dependence.destination
      distance, term.1 ∈ LinearProgram.unknowns ⟨problem.cyclicUnknowns, constraints, []⟩ :=
    cyclicForm_known source destination
  -- Whole numbers are exact already.
  have exactLatency : exactly (Quantity.ratio (problem.latencyOf dependence.source)) =
      .ok (problem.latencyOf dependence.source : Rat) := rfl
  have exactDistance : exactly (Measure.ratio dependence.distance) =
      .ok (dependence.distance : Rat) := rfl
  simp only [measured_int, wellFormed.latencyNamed source, ok_bind, exactLatency, exactDistance,
    requireVariables_ok (known 0)]
  exact addConstraint_ok (known dependence.distance)

/-- The program of a problem can be built, and its feasible points are the intervals that do, each
with starts for it. -/
theorem WellFormed.cyclicProgram (wellFormed : problem.WellFormed) :
    ∃ program, problem.cyclicProgram = .ok program ∧
      program.Describes problem.cyclicUnknowns fun x =>
        problem.Overlaps (fun name => x (startVariable name)) (x intervalVariable) := by
  refine ⟨_, wellFormed.cyclicProgram_eq, ⟨?_, ?_, by simp⟩, rfl, fun x => ?_, ?_⟩
  · -- The variable of the interval is not that of any start.
    exact List.nodup_append.mpr ⟨wellFormed.nodup_startUnknowns, by simp, fun name member other
      isInterval => fun same => intervalVariable_not_mem
        (List.mem_singleton.mp isInterval ▸ same ▸ member)⟩
  · rw [List.forall_mem_cons, List.forall_mem_map]
    refine ⟨fun term inside => interval_known term (List.mem_filter.mp inside).1,
      fun dependence member term inside => ?_⟩
    obtain ⟨source, destination⟩ := wellFormed.endpoints dependence member
    exact cyclicForm_known source destination term (List.mem_filter.mp inside).1
  · -- All constraints together are what makes iterations overlap.
    simp only [Feasible, List.forall_mem_cons, List.forall_mem_map, cyclicUnknowns, startUnknowns,
      List.forall_mem_append, holds_positiveInterval, holds_cyclicConstraint]
    constructor
    · rintro ⟨⟨nonneg, _⟩, positive, ordered⟩
      exact ⟨nonneg, positive, ordered⟩
    · intro overlaps
      exact ⟨⟨overlaps.nonneg, zero_le_one.trans overlaps.positive, by simp⟩, overlaps.positive,
        overlaps.ordered⟩
  · rw [List.forall_mem_cons, List.forall_mem_map]
    exact ⟨keepsWhole_interval 1 1 .atLeast "ii >= 1" fun x => by simp, fun dependence _ =>
      keepsWhole_difference (startVariable dependence.destination)
        (startVariable dependence.source) dependence.text.spelled dependence.distance
        (problem.latencyOf dependence.source) fun x => eval_cyclicForm _ _ _ _⟩

end Problem

end CycleSchedule
