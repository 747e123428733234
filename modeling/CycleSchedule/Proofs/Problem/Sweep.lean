import CycleSchedule.Proofs.Problem.Validity

/-! The check of limits as a sweep over cycles: the windows of a type are counted cycle by cycle,
and the cycles in use are looked through in order. It ends just as the check that only looks at the
cycles at which operations start. -/

namespace CycleSchedule

open ReservationTable (windowCycles count_windowCycles)

/-- Counts a cycle once more. Each cycle is listed with its number where it was first counted. -/
def countCycle : List (Int × Nat) → Int → List (Int × Nat)
  | [], cycle => [(cycle, 1)]
  | (other, number) :: rest, cycle =>
    if other = cycle then (other, number + 1) :: rest else (other, number) :: countCycle rest cycle

/-- Cycles in order, and those of one cycle by their numbers. -/
def comesBefore (first second : Int × Nat) : Bool :=
  first.1 < second.1 || first.1 = second.1 && first.2 ≤ second.2

namespace Problem

/-- How often each cycle is used by the operations of a type. -/
def countUsage (problem : Problem Int) (starts : NameTable Int) (operatorType : OperatorType Int) :
    Except Fault (List (Int × Nat)) :=
  (problem.operationsOfType operatorType.name).foldlM (fun usage operation => do
    let start ← startOf starts operation.name
    return (windowCycles (max operatorType.latency 1) start).foldl countCycle usage) []

/-- A limited type is refused at the first cycle in which it is used more often than it has
instances. -/
def sweepLimit (problem : Problem Int) (starts : NameTable Int) (operatorType : OperatorType Int) :
    Except Fault Unit :=
  match operatorType.limit with
  | none => .ok ()
  | some limit => do
    let usage ← problem.countUsage starts operatorType
    -- The cycles are put in order before they are looked at, so the first excess is the earliest.
    (usage.mergeSort comesBefore).forM fun (cycle, number) =>
      if limit < number then
        .error (.invalidSchedule
          (.overusedType operatorType.name number cycle (Measure.number limit)))
      else .ok ()

end Problem

/-- Counters that have seen a row of cycles: each that came is listed once, with its number. -/
structure Counts (usage : List (Int × Nat)) (cycles : List Int) : Prop where
  distinct : (usage.map (·.1)).Nodup
  listed : ∀ cycle number, (cycle, number) ∈ usage ↔ 0 < number ∧ cycles.count cycle = number

variable {usage : List (Int × Nat)} {cycles : List Int} {cycle other : Int} {number : Nat}

/-- Only a cycle that has not been counted before is added to those that are listed. -/
theorem map_fst_countCycle (usage : List (Int × Nat)) (cycle : Int) :
    (countCycle usage cycle).map (·.1) =
      if cycle ∈ usage.map (·.1) then usage.map (·.1) else usage.map (·.1) ++ [cycle] := by
  induction usage with
  | nil => rfl
  | cons entry rest ih =>
    rw [countCycle]
    by_cases same : entry.1 = cycle
    · simp [same]
    · -- The cycle is looked for further on, and is added at the end if it is not there.
      have different : cycle ≠ entry.1 := fun equal => same equal.symm
      rw [if_neg same, List.map_cons, ih]
      by_cases known : cycle ∈ rest.map (·.1)
      · simp [known]
      · simp [known, different]

/-- The numbers of all other cycles stay. -/
theorem mem_countCycle_of_ne (different : other ≠ cycle) :
    (other, number) ∈ countCycle usage cycle ↔ (other, number) ∈ usage := by
  induction usage with
  | nil => simp [countCycle, different]
  -- The first entry is either that of the cycle, or it stays in front.
  | cons entry rest ih =>
    rw [countCycle]
    split
    · rename_i same
      obtain ⟨here, before⟩ := entry
      obtain rfl : here = cycle := same
      simp [different]
    · rw [List.mem_cons, List.mem_cons, ih]

/-- The number of the cycle itself goes up by one, to one if it has not been counted before. -/
theorem mem_countCycle_self (distinct : (usage.map (·.1)).Nodup) :
    (cycle, number) ∈ countCycle usage cycle ↔
      number = 1 ∧ cycle ∉ usage.map (·.1) ∨ ∃ before, (cycle, before) ∈ usage ∧
        number = before + 1 := by
  induction usage with
  | nil => simp [countCycle]
  | cons entry rest ih =>
    obtain ⟨here, before⟩ := entry
    rw [List.map_cons, List.nodup_cons] at distinct
    rw [countCycle]
    split
    · -- It is listed here and nowhere else.
      rename_i same
      obtain rfl : here = cycle := same
      have elsewhere (number : Nat) : (here, number) ∉ rest := fun member =>
        distinct.1 (List.mem_map.mpr ⟨_, member, rfl⟩)
      simp [elsewhere]
    · -- It is not here, so it is looked for in the rest, where it is listed once as well.
      rename_i different
      have different' : cycle ≠ here := fun equal => different equal.symm
      simp [ih distinct.2, different']

/-- Where no cycle has come, none is listed. -/
theorem counts_nil : Counts [] [] where
  distinct := List.nodup_nil
  listed cycle number := by
    -- No number of times is positive, as each entry of a count is.
    simp only [List.not_mem_nil, List.count_nil, false_iff, not_and]
    omega

/-- One cycle more is counted. -/
theorem Counts.countCycle (counts : Counts usage cycles) (cycle : Int) :
    Counts (countCycle usage cycle) (cycles ++ [cycle]) where
  distinct := by
    rw [map_fst_countCycle]
    split
    · exact counts.distinct
    · -- A cycle that is new stands behind all others, and is none of them.
      rename_i unknown
      refine List.nodup_append.mpr ⟨counts.distinct, List.nodup_singleton _, ?_⟩
      intro known member new isNew same
      exact unknown (List.mem_singleton.mp isNew ▸ same ▸ member)
  listed := by
    intro other number
    rw [List.count_append]
    by_cases same : other = cycle
    · subst same
      rw [mem_countCycle_self counts.distinct, List.count_singleton_self]
      -- What has not come yet is not listed, and is listed with one from now on.
      have listed : other ∈ usage.map (·.1) ↔ 0 < cycles.count other := by
        simp only [List.mem_map, Prod.exists, exists_and_right, exists_eq_right, counts.listed]
        exact ⟨fun ⟨_, positive, same⟩ => same ▸ positive, fun positive => ⟨_, positive, rfl⟩⟩
      simp only [listed, counts.listed]
      constructor
      · rintro (⟨rfl, unused⟩ | ⟨before, ⟨_, rfl⟩, rfl⟩) <;> omega
      · rintro ⟨positive, rfl⟩
        by_cases used : 0 < cycles.count other
        · exact .inr ⟨_, ⟨used, rfl⟩, rfl⟩
        · exact .inl ⟨by omega, used⟩
    · -- The count of any other cycle is what it was.
      rw [mem_countCycle_of_ne same, counts.listed, List.count_singleton,
        if_neg (by simpa using fun equal => same equal.symm), add_zero]

/-- So is any row of cycles. -/
theorem Counts.foldl (counts : Counts usage cycles) (more : List Int) :
    Counts (more.foldl CycleSchedule.countCycle usage) (cycles ++ more) := by
  -- By induction on the cycles that are still to be counted.
  induction more generalizing usage cycles with
  | nil => simpa using counts
  | cons cycle more ih => simpa using ih (counts.countCycle cycle)

/-- A cycle comes as often in the windows as there are windows that hold it. -/
theorem count_flatMap_windowCycles (width : Int) (starts : List Int) (cycle : Int) :
    (starts.flatMap (windowCycles width)).count cycle = occupied width starts cycle := by
  induction starts with
  | nil => rfl
  | cons start starts ih =>
    -- Each start adds its window, once for each cycle in it.
    rw [List.flatMap_cons, List.count_append, ih, count_windowCycles, occupied_cons, add_comm]

/-- The counters of a row of windows list the cycles in use, each with the number of windows that
hold it. -/
theorem mem_foldl_windows {width : Int} {starts : List Int} :
    (cycle, number) ∈ (starts.flatMap (windowCycles width)).foldl countCycle [] ↔
      0 < number ∧ occupied width starts cycle = number := by
  -- The count is of the cycles of all windows together, in whatever order they come.
  have counts : Counts ((starts.flatMap (windowCycles width)).foldl countCycle [])
      ([] ++ starts.flatMap (windowCycles width)) :=
    counts_nil.foldl _
  rw [counts.listed, List.nil_append, count_flatMap_windowCycles]

/-- The order of entries in terms of their cycles and numbers. -/
theorem comesBefore_iff {first second : Int × Nat} : comesBefore first second = true ↔
    first.1 < second.1 ∨ first.1 = second.1 ∧ first.2 ≤ second.2 := by
  simp [comesBefore]

/-- Looking through entries in order, the first one that is refused is the least of them. -/
theorem le_of_find?_mergeSort {p : Int × Nat → Bool} {entry first : Int × Nat}
    (found : (usage.mergeSort comesBefore).find? p = some first) (member : entry ∈ usage)
    (refused : p entry = true) : first.1 ≤ entry.1 := by
  have sorted : (usage.mergeSort comesBefore).Pairwise (comesBefore · ·) := by
    -- Entries are compared as pairs of numbers, and so their order is total.
    refine List.pairwise_mergeSort (fun a b c => ?_) (fun a b => ?_) _
    · simp only [comesBefore_iff]
      omega
    · simp only [Bool.or_eq_true, comesBefore_iff]
      omega
  obtain ⟨_, before, after, split, none_⟩ := List.find?_eq_some_iff_append.mp found
  -- What is refused does not come before the first that is refused.
  have inside : entry ∈ before ++ first :: after := split ▸ List.mem_mergeSort.mpr member
  rcases List.mem_append.mp inside with early | late
  · simpa [refused] using none_ entry early
  · rcases List.mem_cons.mp late with rfl | later
    · exact le_rfl
    · -- What comes after the first refused entry is not before it in the order.
      rw [split, List.pairwise_append] at sorted
      have ordered := (List.pairwise_cons.mp sorted.2.1).1 entry later
      rw [comesBefore_iff] at ordered
      omega

/-- A loop that fails at entries with some property fails at the first of them. -/
theorem forM_ite_error {α : Type} (entries : List α) (p : α → Prop) [DecidablePred p]
    (fault : α → Fault) :
    entries.forM (fun entry => if p entry then Except.error (fault entry) else .ok ()) =
      match entries.find? (p ·) with
      | some entry => .error (fault entry)
      | none => .ok () := by
  induction entries with
  | nil => rfl
  | cons entry entries ih =>
    rw [List.find?_cons, List.forM]
    -- The first entry that is refused ends the check, and `find?` stops at the same one.
    by_cases refused : p entry
    · simp only [refused, if_true, decide_true]
      rfl
    · simp only [refused, if_false, decide_false]
      exact ih

/-- The first cycle in order that is used too often is the first start that is so. -/
theorem find?_mergeSort_windows {width : Int} (wide : 1 ≤ width) (used : List Int) (limit : Int) :
    (((used.flatMap (windowCycles width)).foldl countCycle []).mergeSort comesBefore).find?
        (fun entry => limit < entry.2) =
      (used.filter fun cycle => limit < occupied width used cycle).min?.map fun cycle =>
        (cycle, occupied width used cycle) := by
  -- A start is a cycle in which the type is used, so it is listed with its number.
  have listed {start : Int} (isStart : start ∈ used) :
      (start, occupied width used start) ∈
        (used.flatMap (windowCycles width)).foldl countCycle [] :=
    mem_foldl_windows.mpr ⟨List.countP_pos_iff.mpr ⟨start, isStart, by simp; omega⟩, rfl⟩
  cases found : (((used.flatMap (windowCycles width)).foldl countCycle []).mergeSort
      comesBefore).find? (fun entry => limit < entry.2) with
  | none =>
    -- Nothing is used too often, neither at a start nor elsewhere.
    have fits : used.filter (fun cycle => limit < occupied width used cycle) = [] := by
      refine List.filter_eq_nil_iff.mpr fun start isStart => ?_
      exact List.find?_eq_none.mp found _ (List.mem_mergeSort.mpr (listed isStart))
    rw [fits]
    rfl
  | some first =>
    obtain ⟨cycle, number⟩ := first
    obtain ⟨positive, rfl⟩ := mem_foldl_windows.mp
      (List.mem_mergeSort.mp (List.mem_of_find?_eq_some found))
    have exceeds : limit < (occupied width used cycle : Int) := by
      simpa using List.find?_some found
    have least {start : Int} (isStart : start ∈ used)
        (exceeding : limit < (occupied width used start : Int)) : cycle ≤ start :=
      le_of_find?_mergeSort found (listed isStart) (by simpa using exceeding)
    -- Some start up to the cycle is used as often, and no such start comes before it.
    obtain ⟨start, isStart, before, rises⟩ := exists_start_occupied_le positive
    obtain rfl : start = cycle := le_antisymm before (least isStart (by omega))
    -- So that start is the least one at which the type is used too often.
    have isMin : (used.filter fun cycle => limit < occupied width used cycle).min? =
        some start := by
      refine List.min?_eq_some_iff.mpr ⟨List.mem_filter.mpr ⟨isStart, by simpa using exceeds⟩, ?_⟩
      intro other member
      obtain ⟨isOther, exceeding⟩ := List.mem_filter.mp member
      exact least isOther (by simpa using exceeding)
    rw [isMin]
    rfl

namespace Problem

variable {problem : Problem Int} {starts : NameTable Int} {operatorType : OperatorType Int}

/-- The cycles of all windows are counted in a row. -/
theorem countUsage_eq : problem.countUsage starts operatorType =
    (problem.startsOfType starts operatorType.name).map fun used =>
      (used.flatMap (windowCycles (max operatorType.latency 1))).foldl countCycle [] := by
  rw [countUsage, startsOfType]
  -- Looking the starts up first and counting them later comes to the same.
  refine (foldlM_map_eq (fun operation : Operation => startOf starts operation.name)
    (fun usage start => (windowCycles (max operatorType.latency 1) start).foldl countCycle usage)
    _ []).trans ?_
  simp only [List.foldl_flatMap]

/-- The sweep over the cycles ends as the check does that only looks at the starts: both pass, or
both fail, and then with the same cycle, the first one in which the type is used too often. -/
theorem sweepLimit_eq_checkLimit (problem : Problem Int) (starts : NameTable Int)
    (operatorType : OperatorType Int) :
    problem.sweepLimit starts operatorType = problem.checkLimit starts operatorType := by
  -- After the counting both checks look at the same starts.
  rw [sweepLimit, checkLimit, countUsage_eq]
  cases operatorType.limit with
  | none => rfl
  | some limit =>
    cases problem.startsOfType starts operatorType.name with
    | error fault => rfl
    | ok used =>
      simp only [Except.map, ok_bind, windowWidth_int, measured_int, ofInt_int]
      rw [forM_ite_error _ (fun entry : Int × Nat => limit < entry.2)
        (fun entry => .invalidSchedule
          (.overusedType operatorType.name entry.2 entry.1 (Measure.number limit))),
        find?_mergeSort_windows (le_max_right _ _)]
      cases used with
      | nil => rfl
      | cons start rest =>
        -- With a start in use the list is not empty, and what is left is to compare two messages.
        rw [List.isEmpty_cons, if_neg (by decide)]
        cases ((start :: rest).filter fun cycle =>
          limit < occupied (max operatorType.latency 1) (start :: rest) cycle).min? <;> rfl

/-- Fails with the first constraint that the start times break, looking for limits that are exceeded
cycle by cycle. -/
def sweepSchedule (problem : Problem Int) (starts : NameTable (Option Int)) (interval : Option Int)
    (variant : Variant) : Except Fault Unit := do
  let complete ← problem.completeStarts starts
  let usable ← problem.usableInterval interval variant
  problem.dependences.forM (problem.checkDependence complete usable)
  match variant with
  | .sharedOperators => problem.operatorTypes.forM (problem.sweepLimit complete)
  | _ => .ok ()

/-- Whether limits are looked at cycle by cycle or start by start, the check of a schedule ends in
the same way. -/
theorem sweepSchedule_eq_checkSchedule (problem : Problem Int)
    (starts : NameTable (Option Int)) (interval : Option Int) (variant : Variant) :
    problem.sweepSchedule starts interval variant =
      problem.checkSchedule starts interval variant := by
  -- The two checks only differ in how they look at limits.
  have same : problem.sweepLimit = problem.checkLimit :=
    funext fun complete => funext (problem.sweepLimit_eq_checkLimit complete)
  rw [sweepSchedule, same]
  rfl

end Problem

end CycleSchedule
