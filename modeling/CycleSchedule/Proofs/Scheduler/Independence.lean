import CycleSchedule.Proofs.Scheduler.Service

/-! What schedules do not depend on: the order in which things are registered and, with limited
operators, the operation that counts as the last one. -/

namespace CycleSchedule

namespace Problem

/-- The same registrations in any order; stored schedules do not count. -/
structure Rearranges {ν : Type} (problem other : Problem ν) : Prop where
  types : problem.operatorTypes.Perm other.operatorTypes
  operations :
    (problem.operations.map fun operation => (operation.name, operation.operatorType)).Perm
      (other.operations.map fun operation => (operation.name, operation.operatorType))
  dependences : problem.dependences.Perm other.dependences

variable {problem other : Problem Int} {variant : Variant} {first second : AlgorithmResult Int}
  {starts : NameTable Int} {last : Option String} {config : SchedulingConfig}

/-- Problems with the same operations, latencies and dependences. -/
structure Alike (problem other : Problem Int) : Prop where
  names : ∀ name, name ∈ problem.operationNames ↔ name ∈ other.operationNames
  latencies : ∀ name, problem.latencyOf name = other.latencyOf name
  dependences : ∀ dependence, dependence ∈ problem.dependences ↔ dependence ∈ other.dependences

/-- Being alike goes both ways. -/
theorem Alike.symm (alike : Alike problem other) : Alike other problem :=
  ⟨fun name => (alike.names name).symm, fun name => (alike.latencies name).symm,
    fun dependence => (alike.dependences dependence).symm⟩

/-- Well-formed problems with the same registrations are alike. -/
theorem Rearranges.alike (rearranges : problem.values.Rearranges other.values)
    (wellFormed : problem.WellFormed) (otherWellFormed : other.WellFormed) :
    Alike problem other := by
  obtain ⟨types, operations, dependences⟩ := rearranges
  -- The names are the first parts of what is listed in another order.
  have names (name : String) : name ∈ problem.operationNames ↔ name ∈ other.operationNames := by
    have paired := (operations.map Prod.fst).mem_iff (a := name)
    rwa [List.map_map, List.map_map] at paired
  refine ⟨names, fun name => ?_, fun dependence => ?_⟩
  · by_cases known : name ∈ problem.operationNames
    · -- Both operations of the name are of the same type, which is registered in both problems.
      obtain ⟨operation, member, rfl⟩ := List.mem_map.mp known
      obtain ⟨operatorType, registered, isType, _, latency⟩ := wellFormed.exists_operatorType member
      obtain ⟨operation', member', same⟩ := List.mem_map.mp (operations.mem_iff.mp
        (List.mem_map.mpr ⟨operation, member, rfl⟩))
      obtain ⟨sameName, sameType⟩ := Prod.mk.inj same
      obtain ⟨operatorType', registered', isType', _, latency'⟩ :=
        otherWellFormed.exists_operatorType member'
      have shared : operatorType ∈ other.operatorTypes :=
        (List.mem_map_of_injective OperatorType.values_injective).mp
          (types.mem_iff.mp (List.mem_map_of_mem registered))
      rw [latency, ← sameName, latency', otherWellFormed.eq_of_type_name shared registered'
        (isType.trans (sameType.symm.trans isType'.symm))]
    · rw [latencyOf_of_not_mem known, latencyOf_of_not_mem (mt (names name).mpr known)]
  · have registered := dependences.mem_iff (a := dependence.values)
    rwa [values, values, List.mem_map_of_injective Dependence.values_injective,
      List.mem_map_of_injective Dependence.values_injective] at registered

/-- The same cycles stand in the way of a schedule. -/
theorem Alike.obstructed (alike : Alike problem other) (inTheWay : problem.Obstructed variant) :
    other.Obstructed variant := by
  have subset : problem.dependences ⊆ other.dependences := fun dependence =>
    (alike.dependences dependence).mp
  rcases inTheWay with ⟨acyclic, cycle, isCycle⟩ | ⟨cyclic, cycle, isCycle, slow⟩
  · exact Or.inl ⟨acyclic, cycle, isCycle.mono subset⟩
  · -- With the same latencies the cycle takes as much time.
    have duration : other.duration cycle = problem.duration cycle := by
      simp only [Problem.duration, alike.latencies]
    exact Or.inr ⟨cyclic, cycle, isCycle.mono fun dependence member => mem_zeroDistance.mpr
      ((mem_zeroDistance.mp member).imp_left fun known => subset known), duration ▸ slow⟩

/-- The same starts pass the check of schedules. -/
theorem Alike.checkSchedule (alike : Alike problem other) (wellFormed : problem.WellFormed)
    (otherWellFormed : other.WellFormed) (unlimited : variant ≠ .sharedOperators)
    {given : NameTable (Option Int)} {recorded : Option Int}
    (passed : problem.checkSchedule given recorded variant = .ok ()) :
    other.checkSchedule given recorded variant = .ok () := by
  -- A map that passes is complete, for one problem as for the other.
  obtain ⟨starts, _, gives, _⟩ := wellFormed.respects_of_checkSchedule passed
  rw [wellFormed.checkSchedule_eq_ok_iff_ordered unlimited gives.same] at passed
  obtain ⟨interval, usable, nonneg, ordered⟩ := passed
  rw [otherWellFormed.checkSchedule_eq_ok_iff_ordered unlimited fun name known =>
    gives.same name ((alike.names name).mpr known)]
  refine ⟨interval, ?_, fun name known => nonneg name ((alike.names name).mpr known),
    fun dependence member => ?_⟩
  · -- Which interval is used does not depend on the problem.
    cases variant with
    | basic => exact usable
    | cyclic =>
      exact usableInterval_cyclic_eq_ok_iff.mpr (usableInterval_cyclic_eq_ok_iff.mp usable)
    | sharedOperators => exact usable
  · rw [← alike.latencies]
    exact ordered dependence ((alike.dependences dependence).mpr member)

/-- A result that passes the check of schedules, with an interval that nothing that passes is below,
and in which no operation starts later than in anything that passes with this interval. -/
structure Foremost (problem : Problem Int) (variant : Variant) (result : AlgorithmResult Int) :
    Prop where
  names : result.starts.names = problem.operationNames
  valid : problem.checkSchedule result.starts.known result.interval variant = .ok ()
  shortest : ∀ given recorded, problem.checkSchedule given recorded variant = .ok () →
    ∀ interval, result.interval = some interval → ∃ longer, recorded = some longer ∧
      interval ≤ longer
  least : ∀ given, problem.checkSchedule given result.interval variant = .ok () →
    ∀ name ∈ problem.operationNames, ∃ start later, result.starts.get? name = some start ∧
      given.get? name = some (some later) ∧ start ≤ later

section Foremost

variable (foremost : problem.Foremost variant first) (another : other.Foremost variant second)
  (alike : Alike problem other) (wellFormed : problem.WellFormed)
  (otherWellFormed : other.WellFormed) (unlimited : variant ≠ .sharedOperators)

include foremost another alike wellFormed otherWellFormed unlimited

/-- Such results of problems that are alike have the same interval. -/
theorem Foremost.interval_eq : first.interval = second.interval := by
  -- Each of the two passes the check of the other problem.
  have le := foremost.shortest _ _
    (alike.symm.checkSchedule otherWellFormed wellFormed unlimited another.valid)
  have ge := another.shortest _ _
    (alike.checkSchedule wellFormed otherWellFormed unlimited foremost.valid)
  cases isFirst : first.interval with
  | some interval =>
    -- Then the other one has an interval too, and neither is longer than the other.
    obtain ⟨longer, isSecond, le⟩ := le interval isFirst
    obtain ⟨_, same, ge⟩ := ge longer isSecond
    obtain rfl := Option.some.inj (isFirst.symm.trans same)
    rw [isSecond, le_antisymm le ge]
  | none =>
    cases isSecond : second.interval with
    | some longer =>
      obtain ⟨_, same, _⟩ := ge longer isSecond
      simp [isFirst] at same
    | none => rfl

/-- They also have the same starts. -/
theorem Foremost.get?_eq (name : String) : first.starts.get? name = second.starts.get? name := by
  have same := foremost.interval_eq another alike wellFormed otherWellFormed unlimited
  by_cases known : name ∈ problem.operationNames
  · -- Each of the two passes the check of the other problem, so that neither is later.
    exact get?_eq_of_exists_later
      (foremost.least _ (same ▸ alike.symm.checkSchedule otherWellFormed wellFormed unlimited
        another.valid) name known)
      (another.least _ (same ▸ alike.checkSchedule wellFormed otherWellFormed unlimited
        foremost.valid) name ((alike.names name).mp known))
  · rw [NameTable.get?_eq_none_iff.mpr (foremost.names ▸ known),
      NameTable.get?_eq_none_iff.mpr (another.names ▸ mt (alike.names name).mpr known)]

end Foremost

/-- Within one iteration the least starts make such a result. -/
theorem Least.foremost (least : problem.Least [] starts)
    (names : starts.names = problem.operationNames) (wellFormed : problem.WellFormed)
    (fits : problem.Fits .basic) (metadata : Metadata) :
    problem.Foremost .basic ⟨starts, none, metadata⟩ where
  names := names
  valid := (least.respects names).checkSchedule wellFormed fits (by simp) (by simp)
  shortest := by simp
  -- The starts of any other map that passes are starts of a point, and no point is earlier.
  least given passed name known := by
    obtain ⟨others, gives, admissible⟩ := wellFormed.admissible_of_checkSchedule passed
    exact gives.exists_later names known (by exact_mod_cast least.least _ admissible name known)

/-- For overlapping iterations it is the least starts for the least interval. -/
theorem Pipelined.foremost {interval : Int}
    (pipelined : problem.Pipelined last true starts interval) (wellFormed : problem.WellFormed)
    (metadata : Metadata) :
    problem.Foremost .cyclic ⟨starts, some interval, metadata⟩ where
  names := pipelined.respects.names
  valid := pipelined.respects.checkSchedule wellFormed (fun _ _ => Or.inr rfl)
    (fun _ => ⟨one_le_of_mem_intervals pipelined.least.1, rfl⟩) (by simp)
  shortest given recorded passed length isLength := by
    obtain rfl := Option.some.inj isLength
    -- The check refuses what has no interval.
    obtain ⟨_, longer, _, usable, _⟩ := wellFormed.respects_of_checkSchedule passed
    obtain ⟨rfl, _⟩ := usableInterval_cyclic_eq_ok_iff.mp usable
    exact ⟨longer, rfl, pipelined.least.2
      (wellFormed.mem_intervals_iff_checkSchedule.mpr ⟨given, passed⟩)⟩
  least given passed name known := by
    obtain ⟨others, gives, overlaps⟩ := wellFormed.overlaps_of_checkSchedule passed
    exact gives.exists_later pipelined.respects.names known (by
      exact_mod_cast pipelined.noneBefore rfl _ overlaps name known)

end Problem

end CycleSchedule
