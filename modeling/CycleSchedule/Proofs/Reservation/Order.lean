import CycleSchedule.Proofs.Problem.Sweep
import CycleSchedule.Proofs.Reservation.Calls

/-! The windows of all operations can be reserved, in whatever order, just when their starts pass
the check of limits and can be written. -/

namespace CycleSchedule

namespace Problem

variable {problem : Problem Int} {starts : NameTable Int}

/-- An order for the operations of each limited type. -/
def Arranges (problem : Problem Int) (order : OperatorType Int → List Operation) : Prop :=
  ∀ operatorType ∈ problem.operatorTypes, operatorType.limit ≠ none →
    (order operatorType).Perm (problem.operationsOfType operatorType.name)

/-- On a new table for each limited type, the calls for the windows at the starts of its operations
all succeed, one after the other. -/
def Grants (problem : Problem Int) (cutoff : Level) (starts : NameTable Int)
    (order : OperatorType Int → List Operation) : Prop :=
  ∀ operatorType ∈ problem.operatorTypes, operatorType.limit ≠ none →
    ∃ fresh : ReservationTable Int, ReservationTable.new operatorType = .ok fresh ∧
      ∀ outcome ∈ fresh.callAll cutoff ((order operatorType).map fun operation =>
        (operation.name, starts.valueAt operation.name)), outcome = .ok ()

/-- The first and the last cycle of each window of a limited type can be written. -/
def CanBeSaid (problem : Problem Int) (starts : NameTable Int) : Prop :=
  ∀ operatorType ∈ problem.operatorTypes, operatorType.limit ≠ none →
    ∀ operation ∈ problem.operationsOfType operatorType.name,
      (Text.isWritable (starts.valueAt operation.name) && Text.isWritable
        (starts.valueAt operation.name + max operatorType.latency 1 - 1)) = true

/-- On a new table all calls for the windows of a type succeed, in whatever order, just when the
type passes the check and its windows can be written. -/
theorem grants_type_iff (cutoff : Level) {operatorType : OperatorType Int} {limit : Int}
    (limited : operatorType.limit = some limit)
    (started : ∀ operation ∈ problem.operationsOfType operatorType.name,
      operation.name ∈ starts.names)
    {calls : List (String × Int)} (arranged : calls.Perm (problem.windowsOf starts operatorType)) :
    (∃ fresh : ReservationTable Int, ReservationTable.new operatorType = .ok fresh ∧
      ∀ outcome ∈ fresh.callAll cutoff calls, outcome = .ok ()) ↔
      problem.checkLimit starts operatorType = .ok () ∧
        ∀ operation ∈ problem.operationsOfType operatorType.name,
          (Text.isWritable (starts.valueAt operation.name) && Text.isWritable
            (starts.valueAt operation.name + max operatorType.latency 1 - 1)) = true := by
  -- How many of the windows hold a cycle does not depend on their order.
  have count (cycle : Int) : occupied (max operatorType.latency 1) (calls.map (·.2)) cycle =
      problem.busy starts operatorType cycle := by
    rw [← occupied_windowsOf]
    exact (arranged.map _).countP_eq _
  have unused (cycle : Int) : ReservationTable.usage
      ⟨operatorType.name, max operatorType.latency 1, limit, []⟩ cycle = 0 := rfl
  -- So both sides ask that no cycle of the windows exceeds the limit, and that they can be written.
  rw [checkLimit_eq_ok_iff_of_started started]
  simp only [ReservationTable.new_ok limited, Except.ok.injEq, limited, Option.some.injEq,
    exists_eq_left', forall_eq', ReservationTable.forall_mem_callAll_iff]
  rw [ReservationTable.exists_reserveAll_iff (le_max_right _ _)]
  simp only [unused, zero_add, count]
  refine and_congr_right fun _ => ?_
  simp only [arranged.mem_iff, windowsOf, List.forall_mem_map]

/-- All calls succeed on all tables just when the starts pass the check of limits and all windows
can be written. -/
theorem Arranges.grants_iff {order : OperatorType Int → List Operation} {cutoff : Level}
    (arranges : problem.Arranges order)
    (started : ∀ name ∈ problem.operationNames, name ∈ starts.names) :
    problem.Grants cutoff starts order ↔
      problem.operatorTypes.forM (problem.checkLimit starts) = .ok () ∧
        problem.CanBeSaid starts := by
  -- A table is made for each limited type, and its calls are all granted or not.
  have each {operatorType : OperatorType Int} (member : operatorType ∈ problem.operatorTypes)
      {limit : Int} (limited : operatorType.limit = some limit) :=
    grants_type_iff cutoff limited
      (fun operation inside => started _ (mem_operationNames (List.mem_filter.mp inside).1))
      ((arranges operatorType member (by simp [limited])).map fun operation =>
        (operation.name, starts.valueAt operation.name))
  constructor
  · intro grants
    refine ⟨forM_ok fun operatorType member => ?_, fun operatorType member limited => ?_⟩
    · -- A type without a limit is not looked at.
      cases limited : operatorType.limit with
      | none => rw [checkLimit, limited]
      | some limit =>
        exact ((each member limited).mp (grants operatorType member (by simp [limited]))).1
    · obtain ⟨limit, isLimit⟩ := Option.ne_none_iff_exists'.mp limited
      exact ((each member isLimit).mp (grants operatorType member limited)).2
  · rintro ⟨passed, said⟩ operatorType member limited
    obtain ⟨limit, isLimit⟩ := Option.ne_none_iff_exists'.mp limited
    exact (each member isLimit).mpr
      ⟨of_forM_ok passed operatorType member, said operatorType member limited⟩

/-- Three products that overlap on two multipliers, and a shift beside them. -/
def bench : Problem Int :=
  ⟨"bench", [⟨"multiplier", 2, some 2⟩, ⟨"shifter", 0, some 1⟩],
    [⟨"x", "multiplier", none⟩, ⟨"y", "multiplier", none⟩, ⟨"z", "multiplier", none⟩,
      ⟨"shift", "shifter", none⟩], [], none⟩

/-- One operation on one operator of its own. -/
def solo : Problem Int :=
  ⟨"solo", [⟨"adder", 1, some 1⟩], [⟨"x", "adder", none⟩], [], none⟩

/-- Alone, the operation may start whenever it likes. -/
theorem checkLimit_solo (start : Int) :
    solo.operatorTypes.forM (solo.checkLimit [("x", start)]) = .ok () := by
  refine forM_ok fun operatorType member => ?_
  obtain rfl := List.mem_singleton.mp member
  refine (checkLimit_eq_ok_iff_of_started fun operation inside => ?_).mpr ?_
  · obtain rfl := List.mem_singleton.mp inside
    exact List.mem_singleton_self _
  · -- There is no more than this operation to be at work.
    intro limit limited cycle _
    obtain rfl := Option.some.inj limited
    exact_mod_cast List.countP_le_length

end Problem

/-- For starts of all operations, and in whatever order the operations of each limited type are
taken, all calls for their windows succeed just when the check of limits passes and the first and
the last cycle of every window can be written; so no order is refused a window where another one is
not. The check ends in the same way as a sweep over the cycles. -/
theorem reservations_agree_with_limits {problem : Problem Int} {starts : NameTable Int}
    (started : ∀ name ∈ problem.operationNames, name ∈ starts.names) (cutoff : Level) :
    (∀ order, problem.Arranges order → (problem.Grants cutoff starts order ↔
      reported (problem.operatorTypes.forM (problem.checkLimit starts)) = .ok () ∧
        problem.CanBeSaid starts)) ∧
    (∀ order other, problem.Arranges order → problem.Arranges other →
      (problem.Grants cutoff starts order ↔ problem.Grants cutoff starts other)) ∧
    problem.operatorTypes.forM (problem.checkLimit starts) =
      problem.operatorTypes.forM (problem.sweepLimit starts) := by
  -- The per-cycle sweep and the check at the starts are one function.
  have same : problem.checkLimit starts = problem.sweepLimit starts :=
    (funext (problem.sweepLimit_eq_checkLimit starts)).symm
  -- Neither right-hand side mentions the order, so two orders agree through it.
  refine ⟨fun order arranges => ?_, fun order other arranges others =>
    (arranges.grants_iff started).trans (others.grants_iff started).symm, by rw [same]⟩
  rw [reported_eq_ok_iff]
  exact arranges.grants_iff started

/-- Products that start one cycle after the other find free multipliers in reverse order too. -/
theorem bench_granted_backwards :
    (∀ name ∈ Problem.bench.operationNames,
      name ∈ NameTable.names [("shift", (-1 : Int)), ("x", 0), ("y", 1), ("z", 2)]) ∧
    Problem.bench.Grants .debug [("shift", -1), ("x", 0), ("y", 1), ("z", 2)]
      fun operatorType => (Problem.bench.operationsOfType operatorType.name).reverse := by
  -- `shift` starts before cycle 0, which neither side minds.
  have started : ∀ name ∈ Problem.bench.operationNames,
      name ∈ NameTable.names [("shift", (-1 : Int)), ("x", 0), ("y", 1), ("z", 2)] := by decide
  refine ⟨started, ((reservations_agree_with_limits started .debug).1 _
    fun _ _ _ => List.reverse_perm _).mpr ⟨by rfl, ?_⟩⟩
  unfold Problem.CanBeSaid
  decide +kernel

/-- A start with too many digits passes the check of limits, but the call for its window fails. -/
theorem solo_window_not_said :
    let starts : NameTable Int := [("x", Text.leastUnwritable)]
    reported (Problem.solo.operatorTypes.forM (Problem.solo.checkLimit starts)) = .ok () ∧
      ¬Problem.solo.Grants .error starts fun operatorType =>
        Problem.solo.operationsOfType operatorType.name := by
  intro starts
  refine ⟨reported_eq_ok_iff.mpr (Problem.checkLimit_solo _), fun grants => ?_⟩
  -- The operations in their own order are one of the arrangements.
  have arranges : Problem.solo.Arranges fun operatorType =>
      Problem.solo.operationsOfType operatorType.name := fun _ _ _ => .refl _
  have said := ((arranges.grants_iff (by decide)).mp grants).2
    ⟨"adder", 1, some 1⟩ (List.mem_singleton_self _) (by decide) _ (List.mem_singleton_self _)
  revert said
  decide +kernel

end CycleSchedule
