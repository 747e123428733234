import CycleSchedule.Proofs.Scheduler.Shared

/-! Pinning all operations of limited types: every step keeps what was pinned in place, and in the
end the starts respect the dependences and the limits. -/

namespace CycleSchedule.Problem

open CycleSchedule.Shared

variable {problem : Problem Int} {initial starts : NameTable Int} {order pending : List String}
  {progress : Progress Int}

/-- What holds between two steps: the starts are the least for the pins, which the program and the
tables know, and nothing that is still to be pinned can push back what is pinned. -/
structure Pinning (problem : Problem Int) (initial : NameTable Int) (pending : List String)
    (progress : Progress Int) : Prop where
  least : problem.Least progress.pinned progress.starts
  formulates : problem.Formulates progress.pinned progress.program
  reserved : problem.Reserved progress.pinned progress.tables
  distinct : pending.Nodup
  divided : ∀ name, name ∈ pendingOperations problem ↔
    name ∈ pending ∨ name ∈ progress.pinned.names
  apart : ∀ name ∈ pending, name ∉ progress.pinned.names
  ahead : ∀ name ∈ pending, ∀ other ∈ progress.pinned.names, ¬problem.Upstream name other
  still : progress.delayed = 0 → progress.starts = initial

/-- What pinning an operation of a limited type changes: it gets the first free window of its type
from its start on, to which all starts are adapted. Where that window is a later one, it counts as
delayed. -/
structure Step (problem : Problem Int) (pending : List String) (progress next : Progress Int)
    (operation : Operation) (operatorType : OperatorType Int) (limit slot : Int) : Prop where
  member : operation ∈ problem.operations
  isPending : operation.name ∈ pending
  -- All that it needs from limited types has been pinned before.
  first : ∀ other ∈ pending, ¬problem.Upstream other operation.name
  typeMember : operatorType ∈ problem.operatorTypes
  isType : operatorType.name = operation.operatorType
  limited : operatorType.limit = some limit
  free : (tableFor progress.tables operatorType limit).nextAvailable
    (progress.starts.valueAt operation.name) = some slot
  pinned : next.pinned = progress.pinned.put operation.name slot
  tables : next.tables = progress.tables.put operatorType.name
    ((tableFor progress.tables operatorType limit).hold operation.name slot)
  least : problem.Least next.pinned next.starts
  formulates : problem.Formulates next.pinned next.program
  -- Starts change only where the window is later than the start.
  moved : slot = progress.starts.valueAt operation.name ∧ next.starts = progress.starts ∧
      next.delayed = progress.delayed ∨
    slot ≠ progress.starts.valueAt operation.name ∧ next.delayed = progress.delayed + 1

section Step

variable {next : Progress Int} {operation : Operation} {operatorType : OperatorType Int}
  {limit slot : Int}

/-- After a step everything still holds. -/
theorem Step.pinning (step : problem.Step pending progress next operation operatorType limit slot)
    (wellFormed : problem.WellFormed) (pinning : problem.Pinning initial pending progress) :
    problem.Pinning initial (pending.erase operation.name) next := by
  have left (other : String) :
      other ∈ pending.erase operation.name ↔ other ≠ operation.name ∧ other ∈ pending :=
    pinning.distinct.mem_erase_iff
  have known (other : String) :
      other ∈ next.pinned.names ↔ other = operation.name ∨ other ∈ progress.pinned.names := by
    rw [step.pinned, NameTable.mem_names_put]
  refine ⟨step.least, step.formulates, ?_, pinning.distinct.erase _, fun other => ?_,
    fun other member => ?_, fun other member target isPinned => ?_, fun unmoved => ?_⟩
  · -- The window that is found is free, so that the table can hold it.
    rw [step.pinned, step.tables]
    exact pinning.reserved.put wellFormed step.member (pinning.apart _ step.isPending)
      step.typeMember step.isType step.limited
      (ReservationTable.nextAvailable_eq_some_iff.mp step.free).1.2
  · -- The name goes over from the pending ones to the pinned ones.
    rw [pinning.divided, left, known]
    by_cases same : other = operation.name
    · simp [same, step.isPending]
    · simp [same]
  · obtain ⟨different, member⟩ := (left other).mp member
    rw [known]
    exact fun isPinned => isPinned.elim different (pinning.apart other member)
  · obtain ⟨_, member⟩ := (left other).mp member
    -- No pending one leads to the name, nor to what was pinned before.
    rcases (known target).mp isPinned with same | old
    · rw [same]
      exact step.first other member
    · exact pinning.ahead other member target old
  · -- A step that delays nothing leaves the starts as they are.
    rcases step.moved with ⟨_, same, count⟩ | ⟨_, count⟩
    · rw [same]
      exact pinning.still (count ▸ unmoved)
    · omega

end Step

/-- All that is pinned, with one more operation, are operations of the problem. -/
theorem Pinning.pins_known (pinning : problem.Pinning initial pending progress) {name : String}
    (known : name ∈ problem.operationNames) (slot : Int) :
    ∀ other ∈ NameTable.names (progress.pinned.put name slot), other ∈ problem.operationNames := by
  intro other isPinned
  rcases NameTable.mem_names_put.mp isPinned with rfl | old
  · exact known
  · -- Only operations that were pending have been pinned.
    obtain ⟨another, member, same, _⟩ :=
      mem_pendingOperations.mp ((pinning.divided other).mpr (Or.inr old))
    exact List.mem_map.mpr ⟨another, member, same⟩

/-- The start of an operation is a cycle at which a window can start. -/
theorem Least.windowStart {pinned : NameTable Int} (least : problem.Least pinned starts)
    {name : String} (known : name ∈ problem.operationNames) :
    windowStart starts name = .ok (starts.valueAt name) := by
  rw [Shared.windowStart, startOf, NameTable.get?_of_mem_names ((least.names name).mpr known)]
  rfl

/-- A pin takes the next free window. Where the operation starts with it already, all starts stay as
they are; else they are found anew from all the pins. -/
theorem outcome_pin (setting : Setting Int) {name : String} {table : ReservationTable Int}
    {wanted slot : Int} {program : LinearProgram}
    (located : tableOf setting.problem progress.tables name = .ok table)
    (started : windowStart progress.starts name = .ok wanted)
    (free : table.nextAvailable wanted = some slot) (available : table.isAvailable slot = true)
    (fixed : progress.program.fix [(startVariable name, 1)] slot ("bind " ++ name) = .ok program) :
    (pin setting progress name).outcome =
      if slot = wanted then
        .ok ⟨progress.starts, progress.tables.put table.operatorType (table.hold name slot),
          progress.pinned.put name slot, program, progress.delayed⟩
      else (leastSchedule setting.graph setting.order (progress.pinned.put name slot)).map
        fun starts => ⟨starts, progress.tables.put table.operatorType (table.hold name slot),
          progress.pinned.put name slot, program, progress.delayed + 1⟩ := by
  simp only [pin, Narrated.outcome_bind, Narrated.outcome_lift, located, ok_bind, started, free,
    Narrated.outcome_tell, ReservationTable.outcome_reserve available, fixed]
  split
  · rfl
  · -- Finding the starts anew can fail, and then pinning fails alike.
    simp only [Narrated.outcome_bind, Narrated.outcome_lift, Narrated.outcome_tell, ok_bind]
    cases leastSchedule setting.graph setting.order (progress.pinned.put name slot) <;> rfl

section Steps

variable (wellFormed : problem.WellFormed)
  (single : ∀ dependence ∈ problem.dependences, dependence.distance = 0)
  (all : order.Perm problem.operationNames) (follows : Graph.Follows problem.dependences [] order)

include wellFormed single all follows

/-- The next operation can be pinned: to a cycle with a free instance, which pushes back only what
is not pinned. -/
theorem Pinning.exists_step {first : String} {names : List String}
    (pinning : problem.Pinning initial (first :: names) progress) :
    ∃ next operation operatorType limit slot,
      nextPending order progress.starts first names = operation.name ∧
      (pin ⟨problem, problem.graph true, order⟩ progress operation.name).outcome = .ok next ∧
      problem.Step (first :: names) progress next operation operatorType limit slot := by
  have isPending := (nextPending_spec order progress.starts names first).1
  -- Nothing that is still to be pinned leads to it.
  have noneBefore := pinning.least.not_upstream_nextPending wellFormed all follows first names
  -- The operation is pending because its type has a limit.
  obtain ⟨operation, member, same, operatorType, typeMember, isType, limited⟩ :=
    mem_pendingOperations.mp ((pinning.divided _).mpr (Or.inl isPending))
  obtain ⟨limit, limited⟩ := Option.ne_none_iff_exists'.mp limited
  rw [← same] at isPending noneBefore
  have new := pinning.apart operation.name isPending
  have known : operation.name ∈ problem.operationNames := mem_operationNames member
  -- The table of its type has a free window, no sooner than the operation could start.
  have reserves := pinning.reserved operatorType typeMember limit limited
  have table := wellFormed.tableOf_ok progress.tables member typeMember isType limited
  obtain ⟨slot, free, later, available⟩ :=
    reserves.keeps.exists_nextAvailable (progress.starts.valueAt operation.name)
  obtain ⟨program, fixed, formulates⟩ :=
    pinning.formulates.fix known new slot ("bind " ++ operation.name)
  have outcome := outcome_pin ⟨problem, problem.graph true, order⟩ table
    (pinning.least.windowStart known) free available fixed
  rw [reserves.type] at outcome
  by_cases unmoved : slot = progress.starts.valueAt operation.name
  · rw [if_pos unmoved] at outcome
    refine ⟨_, operation, operatorType, limit, slot, same.symm, outcome, member, isPending,
      noneBefore, typeMember, isType, limited, free, rfl, rfl, ?_, formulates,
      Or.inl ⟨unmoved, rfl, rfl⟩⟩
    show problem.Least (progress.pinned.put operation.name slot) progress.starts
    rw [unmoved]
    exact pinning.least.put_valueAt new
  · rw [if_neg unmoved] at outcome
    -- It can be pushed back, so that there are starts with all the pins.
    rcases wellFormed.leastSchedule single all follows (pinning.pins_known known slot) with
      ⟨starts, found, least⟩ | ⟨_, nothing⟩
    · rw [found] at outcome
      exact ⟨_, operation, operatorType, limit, slot, same.symm, outcome, member, isPending,
        noneBefore, typeMember, isType, limited, free, rfl, rfl, least, formulates,
        Or.inr ⟨unmoved, rfl⟩⟩
    · obtain ⟨x, admissible⟩ := pinning.least.exists_admissible_put new later
        (pinning.ahead operation.name isPending)
      exact absurd admissible (nothing x)

end Steps

/-- The states that pinning comes through, from the least starts without any pins on. -/
inductive Reaches (problem : Problem Int) (initial : NameTable Int) :
    List String → Progress Int → Prop
  | start {program : LinearProgram} (least : problem.Least [] initial)
      (formulates : problem.Formulates [] program) :
      Reaches problem initial (pendingOperations problem) ⟨initial, [], [], program, 0⟩
  | step {pending : List String} {progress next : Progress Int} {operation : Operation}
      {operatorType : OperatorType Int} {limit slot : Int}
      (before : Reaches problem initial pending progress)
      (step : problem.Step pending progress next operation operatorType limit slot) :
      Reaches problem initial (pending.erase operation.name) next

/-- Before the first step nothing is pinned, and the starts are the least ones without pins. -/
theorem WellFormed.pinning (wellFormed : problem.WellFormed) (least : problem.Least [] starts)
    {program : LinearProgram} (formulates : problem.Formulates [] program) :
    problem.Pinning starts (pendingOperations problem) ⟨starts, [], [], program, 0⟩ where
  -- Nothing is pinned or reserved yet, and the starts are the least ones without pins.
  least := least
  formulates := formulates
  reserved := wellFormed.reserved_nil
  distinct := (List.filter_sublist.map _).nodup wellFormed.operations
  divided name := by simp [NameTable.names]
  apart name _ := by simp [NameTable.names]
  ahead name _ := by simp [NameTable.names]
  still _ := rfl

/-- In every state that is reached all of this holds. -/
theorem Reaches.pinning (reaches : problem.Reaches initial pending progress)
    (wellFormed : problem.WellFormed) : problem.Pinning initial pending progress := by
  induction reaches with
  | start least formulates => exact wellFormed.pinning least formulates
  | step _ step ih => exact step.pinning wellFormed ih

/-- All pending operations can be pinned one after the other. -/
theorem Reaches.pinAll (wellFormed : problem.WellFormed)
    (single : ∀ dependence ∈ problem.dependences, dependence.distance = 0)
    (all : order.Perm problem.operationNames)
    (follows : Graph.Follows problem.dependences [] order) :
    ∀ fuel (pending : List String) (progress : Progress Int),
    problem.Reaches initial pending progress → pending.length ≤ fuel →
    ∃ final, (pinAll ⟨problem, problem.graph true, order⟩ fuel pending progress).outcome =
      .ok final ∧ problem.Reaches initial [] final := by
  intro fuel
  -- By induction on the steps left, of which there are as many as pending operations.
  induction fuel with
  | zero =>
    intro pending progress reaches enough
    obtain rfl : pending = [] := List.length_eq_zero_iff.mp (Nat.le_zero.mp enough)
    exact ⟨progress, rfl, reaches⟩
  | succ fuel ih =>
    intro pending progress reaches enough
    cases pending with
    | nil => exact ⟨progress, rfl, reaches⟩
    | cons first names =>
      -- One operation fewer is pending after the step.
      obtain ⟨next, operation, _, _, _, same, pinned, step⟩ :=
        (reaches.pinning wellFormed).exists_step wellFormed single all follows
      obtain ⟨final, finished, done⟩ := ih _ next (reaches.step step) (by
        rw [List.length_erase_of_mem step.isPending]
        simpa using enough)
      refine ⟨final, ?_, done⟩
      simp only [Shared.pinAll, same, Narrated.outcome_bind, pinned, ok_bind]
      exact finished

end CycleSchedule.Problem
