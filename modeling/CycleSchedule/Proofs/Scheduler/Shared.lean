import CycleSchedule.Proofs.Scheduler.Precedence

/-! Limited operators: an operation that was pinned is never pushed again, so that the reservations
describe the final starts. -/

namespace CycleSchedule.Problem

open CycleSchedule.Shared

variable {problem : Problem Int} {pinned starts : NameTable Int} {name : String}
  {tables : NameTable (ReservationTable Int)}

/-- The operations of a type that has a limit. -/
theorem mem_pendingOperations :
    name ∈ pendingOperations problem ↔ ∃ operation ∈ problem.operations, operation.name = name ∧
      ∃ operatorType ∈ problem.operatorTypes, operatorType.name = operation.operatorType ∧
        operatorType.limit ≠ none := by
  simp only [pendingOperations, limitedType?, List.mem_map, List.mem_filter, List.getLast?_isSome]
  constructor
  · -- Some type of that name has a limit, as the search for one finds it.
    rintro ⟨operation, ⟨member, limited⟩, same⟩
    obtain ⟨operatorType, found⟩ := List.exists_mem_of_ne_nil _ limited
    obtain ⟨typeMember, isType⟩ := List.mem_filter.mp found
    simp only [Bool.and_eq_true, decide_eq_true_eq] at isType
    exact ⟨operation, member, same, operatorType, typeMember, isType.1,
      Option.isSome_iff_ne_none.mp isType.2⟩
  · rintro ⟨operation, member, same, operatorType, typeMember, isType, limited⟩
    refine ⟨operation, ⟨member, List.ne_nil_of_mem (a := operatorType) (List.mem_filter.mpr
      ⟨typeMember, ?_⟩)⟩, same⟩
    simp [isType, Option.isSome_iff_ne_none.mpr limited]

/-- The limited type of a name is the type of that name. -/
theorem WellFormed.limitedType?_name (wellFormed : problem.WellFormed)
    {operatorType : OperatorType Int} (member : operatorType ∈ problem.operatorTypes) {limit : Int}
    (limited : operatorType.limit = some limit) :
    limitedType? problem operatorType.name = some operatorType := by
  have inside : operatorType ∈ problem.operatorTypes.filter (fun other =>
      decide (other.name = operatorType.name) && other.limit.isSome) :=
    List.mem_filter.mpr ⟨member, by simp [limited]⟩
  -- The search takes the last type of the name, and there is only one.
  cases found : limitedType? problem operatorType.name with
  | none =>
    exact absurd (List.getLast?_eq_none_iff.mp found) (List.ne_nil_of_mem inside)
  | some other =>
    obtain ⟨otherMember, same⟩ := List.mem_filter.mp (List.mem_of_getLast? found)
    simp only [Bool.and_eq_true, decide_eq_true_eq] at same
    rw [wellFormed.eq_of_type_name otherMember member same.1]

/-- The table of a limited type, empty as long as nothing has been reserved. -/
def tableFor (tables : NameTable (ReservationTable Int)) (operatorType : OperatorType Int)
    (limit : Int) : ReservationTable Int :=
  (tables.get? operatorType.name).getD
    ⟨operatorType.name, max operatorType.latency 1, limit, []⟩

/-- Only the type of the table that is put has another table than before. -/
theorem tableFor_put (tables : NameTable (ReservationTable Int))
    (operatorType other : OperatorType Int) (table : ReservationTable Int) (limit : Int) :
    tableFor (tables.put operatorType.name table) other limit =
      if operatorType.name = other.name then table else tableFor tables other limit := by
  rw [tableFor, NameTable.get?_put]
  split <;> rfl

/-- A table describes the pinned operations of its type, each of them once, and keeps every cycle
within the limit. -/
structure Reserves (problem : Problem Int) (pinned : NameTable Int)
    (operatorType : OperatorType Int) (limit : Int) (table : ReservationTable Int) : Prop where
  keeps : table.Keeps
  type : table.operatorType = operatorType.name
  width : table.width = max operatorType.latency 1
  limit : table.limit = limit
  held : ∀ operation ∈ problem.operations, operation.operatorType = operatorType.name →
    ∀ slot, pinned.get? operation.name = some slot → (operation.name, slot) ∈ table.held
  pins : ∀ name slot, (name, slot) ∈ table.held → pinned.get? name = some slot ∧
    ∃ operation ∈ problem.operationsOfType operatorType.name, operation.name = name
  distinct : (table.held.map (·.1)).Nodup

/-- Every limited type has such a table. -/
def Reserved (problem : Problem Int) (pinned : NameTable Int)
    (tables : NameTable (ReservationTable Int)) : Prop :=
  ∀ operatorType ∈ problem.operatorTypes, ∀ limit, operatorType.limit = some limit →
    problem.Reserves pinned operatorType limit (tableFor tables operatorType limit)

/-- In the beginning nothing is pinned and nothing reserved. -/
theorem WellFormed.reserved_nil (wellFormed : problem.WellFormed) : problem.Reserved [] [] := by
  intro operatorType member limit limited
  -- A new table is empty, and its limit is 1 at least.
  have positive := wellFormed.limits operatorType member limit limited
  exact ⟨ReservationTable.keeps_nil positive, rfl, rfl, rfl, fun _ _ _ _ isPinned => by
    simp at isPinned, fun _ _ isHeld => absurd isHeld List.not_mem_nil, List.nodup_nil⟩

/-- The table of an operation of a limited type can be looked up. -/
theorem WellFormed.tableOf_ok (wellFormed : problem.WellFormed)
    (tables : NameTable (ReservationTable Int)) {operation : Operation}
    (member : operation ∈ problem.operations) {operatorType : OperatorType Int}
    (typeMember : operatorType ∈ problem.operatorTypes)
    (isType : operatorType.name = operation.operatorType) {limit : Int}
    (limited : operatorType.limit = some limit) :
    tableOf problem tables operation.name = .ok (tableFor tables operatorType limit) := by
  simp only [tableOf, wellFormed.operation?_name member, ok_bind, ← isType,
    wellFormed.limitedType?_name typeMember limited, tableFor]
  -- A table that is in use is taken as it is, otherwise a new one of the type is opened.
  cases tables.get? operatorType.name with
  | none => exact ReservationTable.new_ok limited
  | some table => rfl

/-- What a table holds stays pinned with one more operation pinned, which the table does not hold.
-/
theorem Reserves.pins_put {operatorType : OperatorType Int} {limit : Int}
    {table : ReservationTable Int} (reserves : problem.Reserves pinned operatorType limit table)
    (new : name ∉ pinned.names) (slot : Int) {other : String} {place : Int}
    (isHeld : (other, place) ∈ table.held) :
    other ≠ name ∧ NameTable.get? (pinned.put name slot) other = some place ∧
      ∃ operation ∈ problem.operationsOfType operatorType.name, operation.name = other := by
  obtain ⟨isPinned, known⟩ := reserves.pins other place isHeld
  -- An operation in the table has its pin already, so it is not the one that is pinned now.
  have different : name ≠ other := fun same => new (same ▸ NameTable.mem_names_of_get? isPinned)
  exact ⟨different.symm, by rw [NameTable.get?_put_of_ne different, isPinned], known⟩

/-- A window for one more pinned operation goes into the table of its type. -/
theorem Reserved.put (reserved : problem.Reserved pinned tables) (wellFormed : problem.WellFormed)
    {operation : Operation} (member : operation ∈ problem.operations)
    (new : operation.name ∉ pinned.names)
    {operatorType : OperatorType Int} (typeMember : operatorType ∈ problem.operatorTypes)
    (isType : operatorType.name = operation.operatorType) {limit : Int}
    (limited : operatorType.limit = some limit) {slot : Int}
    (available : (tableFor tables operatorType limit).isAvailable slot = true) :
    problem.Reserved (pinned.put operation.name slot)
      (tables.put operatorType.name
        ((tableFor tables operatorType limit).hold operation.name slot)) := by
  intro other otherMember bound bounded
  have own := reserved operatorType typeMember limit limited
  -- Only the table of that type is another one than before.
  by_cases same : operatorType.name = other.name
  · obtain rfl : operatorType = other :=
      wellFormed.eq_of_type_name typeMember otherMember same
    obtain rfl : limit = bound := Option.some.inj (limited.symm.trans bounded)
    rw [tableFor_put, if_pos rfl]
    refine ⟨own.keeps.hold available _, own.type, own.width, own.limit, ?_, ?_, ?_⟩
    · -- The table has a free window there, and holds what it held before.
      intro another anotherMember anotherType place isPinned
      refine List.mem_append.mpr ?_
      rw [NameTable.get?_put] at isPinned
      split at isPinned
      · rename_i here
        right
        rw [List.mem_singleton, here, Option.some.inj isPinned]
      · exact Or.inl (own.held another anotherMember anotherType place isPinned)
    · intro holder place isHeld
      rcases List.mem_append.mp isHeld with old | last
      · exact (own.pins_put new slot old).2
      · obtain ⟨rfl, rfl⟩ := Prod.mk.inj (List.mem_singleton.mp last)
        exact ⟨NameTable.get?_put_self, operation,
          List.mem_filter.mpr ⟨member, by simpa using isType.symm⟩, rfl⟩
    · -- What it held before are other operations.
      show ((_ ++ [(operation.name, slot)]).map Prod.fst).Nodup
      rw [List.map_append, List.nodup_append]
      refine ⟨own.distinct, List.nodup_singleton _, ?_⟩
      rintro holder oldHolder last isLast rfl
      obtain ⟨⟨_, place⟩, old, rfl⟩ := List.mem_map.mp oldHolder
      exact (own.pins_put new slot old).1 (by simpa using isLast)
  · have untouched := reserved other otherMember bound bounded
    rw [tableFor_put, if_neg same]
    refine ⟨untouched.keeps, untouched.type, untouched.width, untouched.limit, fun another
      anotherMember anotherType place isPinned => ?_, fun holder place isHeld =>
      (untouched.pins_put new slot isHeld).2, untouched.distinct⟩
    refine untouched.held another anotherMember anotherType place ?_
    rwa [NameTable.get?_put_of_ne] at isPinned
    intro sameName
    -- Operations of one name are one operation, which has one type only.
    have equal : operation = another :=
      wellFormed.eq_of_operation_name member anotherMember sameName
    exact same (isType.trans (equal ▸ anotherType))

/-- Whether an operation comes before another: by start, then by place in the order. -/
def Before (order : List String) (starts : NameTable Int) (first second : String) : Prop :=
  starts.valueAt first < starts.valueAt second ∨
    starts.valueAt first = starts.valueAt second ∧ order.idxOf first < order.idxOf second

/-- The comparison that is computed is the order by start, then by place. -/
theorem precedes_iff {order : List String} {first second : String} :
    precedes order starts first second = true ↔ Before order starts first second := by
  have less (a b : String) : decide ((starts.get? a).getD (Measure.ofInt 0 : Int) <
      (starts.get? b).getD (Measure.ofInt 0)) = decide (starts.valueAt a < starts.valueAt b) := rfl
  simp only [precedes, less, Bool.or_eq_true, Bool.and_eq_true, Bool.not_eq_true',
    decide_eq_true_eq, decide_eq_false_iff_not, Before]
  -- Not to be later means to be earlier or the same.
  constructor
  · rintro (early | ⟨notLate, place⟩)
    · exact Or.inl early
    · by_cases early : starts.valueAt first < starts.valueAt second
      · exact Or.inl early
      · exact Or.inr ⟨by omega, place⟩
  · rintro (early | ⟨same, place⟩)
    · exact Or.inl early
    · exact Or.inr ⟨by omega, place⟩

/-- The next operation to be pinned is a pending one that no other is before. -/
theorem nextPending_spec (order : List String) (starts : NameTable Int) (names : List String) :
    ∀ first, nextPending order starts first names ∈ first :: names ∧
      ∀ other ∈ first :: names,
        ¬Before order starts other (nextPending order starts first names) := by
  -- By induction on the names, for every one that is the first candidate.
  induction names with
  | nil =>
    intro first
    simp only [nextPending, List.mem_singleton, forall_eq, true_and]
    unfold Before
    omega
  | cons name names ih =>
    intro first
    obtain ⟨member, least⟩ := ih (if precedes order starts name first then name else first)
    rw [nextPending]
    set next := nextPending order starts (if precedes order starts name first then name else first)
      names with isNext
    rw [List.forall_mem_cons] at least
    obtain ⟨notChosen, others⟩ := least
    -- The name takes the place of the first one if it is before it.
    by_cases before : Before order starts name first
    · rw [if_pos (precedes_iff.mpr before)] at member notChosen
      refine ⟨List.mem_cons_of_mem _ member, List.forall_mem_cons.mpr
        ⟨?_, List.forall_mem_cons.mpr ⟨notChosen, others⟩⟩⟩
      -- The first one comes after the one that took its place.
      unfold Before at *
      omega
    · rw [if_neg fun yes => before (precedes_iff.mp yes)] at member notChosen
      refine ⟨?_, List.forall_mem_cons.mpr
        ⟨notChosen, List.forall_mem_cons.mpr ⟨?_, others⟩⟩⟩
      · rcases List.mem_cons.mp member with same | later
        · exact same ▸ List.mem_cons_self
        · exact List.mem_cons_of_mem _ (List.mem_cons_of_mem _ later)
      · unfold Before at *
        omega

/-- Along the dependences starts do not fall. -/
theorem Least.valueAt_le_of_leads (least : problem.Least pinned starts)
    (wellFormed : problem.WellFormed) {first second : String} {walk : List (Dependence Int)}
    (leads : Leads first walk second) (within : ∀ edge ∈ walk, edge ∈ problem.dependences) :
    starts.valueAt first ≤ starts.valueAt second := by
  -- No latency is negative, so neither is what a walk takes.
  have total := leads.weight_le (fun edge => problem.latencyOf edge.source)
    (fun name => starts.valueAt name) least.admissible.ordered within
  have positive : 0 ≤ weight (fun edge => problem.latencyOf edge.source) walk :=
    List.sum_nonneg fun latency member => by
      obtain ⟨edge, _, rfl⟩ := List.mem_map.mp member
      exact wellFormed.latencyOf_nonneg _
  have cast : (0 : Rat) ≤ weight (fun edge => problem.latencyOf edge.source) walk := by
    exact_mod_cast positive
  have rises : (starts.valueAt first : Rat) ≤ starts.valueAt second := by linarith
  exact_mod_cast rises

/-- Whether dependences lead from an operation to another one. -/
def Upstream (problem : Problem Int) (first second : String) : Prop :=
  ∃ walk, walk ≠ [] ∧ (∀ edge ∈ walk, edge ∈ problem.dependences) ∧ Leads first walk second

/-- One more dependence leads on from where the others have led. -/
theorem upstream_destination {edge : Dependence Int} (member : edge ∈ problem.dependences)
    (source : edge.source = name ∨ problem.Upstream name edge.source) :
    problem.Upstream name edge.destination := by
  -- The edge is a way by itself, or the last step of one.
  rcases source with here | ⟨walk, _, within, leads⟩
  · exact ⟨[edge], by simp, by simpa using member, here, rfl⟩
  · exact ⟨walk ++ [edge], by simp, List.forall_mem_append.mpr ⟨within, by simpa using member⟩,
      leads.append ⟨rfl, rfl⟩⟩

/-- No dependences lead to the next operation to be pinned from a pending one. -/
theorem Least.not_upstream_nextPending (least : problem.Least pinned starts)
    (wellFormed : problem.WellFormed) {order : List String}
    (all : order.Perm problem.operationNames)
    (follows : Graph.Follows problem.dependences [] order) (first : String) (names : List String) :
    ∀ name ∈ first :: names, ¬problem.Upstream name (nextPending order starts first names) := by
  rintro name member ⟨walk, nonempty, within, leads⟩
  have notBefore := (nextPending_spec order starts names first).2 name member
  -- An operation that leads to another is before it: by start, or else by place.
  have earlier := follows.idxOf_lt_of_leads (fun edge edgeMember =>
    all.mem_iff.mpr (wellFormed.endpoints edge edgeMember).2) leads within nonempty
  have rises := least.valueAt_le_of_leads wellFormed leads within
  unfold Before at notBefore
  omega

open Classical in
/-- The starts once an operation and all that it leads to have been pushed back by some cycles. -/
noncomputable def pushedBack (problem : Problem Int) (starts : NameTable Int) (name : String)
    (cycles : Int) (other : String) : Int :=
  starts.valueAt other + if other = name ∨ problem.Upstream name other then cycles else 0

/-- Pushing an operation back moves no start to an earlier cycle. -/
theorem le_pushedBack {cycles : Int} (nonneg : 0 ≤ cycles) (other : String) :
    starts.valueAt other ≤ problem.pushedBack starts name cycles other := by
  unfold pushedBack
  split <;> omega

/-- With the source of a dependence its destination is pushed back too, so that no result is
missed. -/
theorem pushedBack_ordered {cycles latency : Int} (nonneg : 0 ≤ cycles) {edge : Dependence Int}
    (member : edge ∈ problem.dependences)
    (ordered : starts.valueAt edge.source + latency ≤ starts.valueAt edge.destination) :
    problem.pushedBack starts name cycles edge.source + latency ≤
      problem.pushedBack starts name cycles edge.destination := by
  by_cases source : edge.source = name ∨ problem.Upstream name edge.source
  · have destination := upstream_destination member source
    unfold pushedBack
    rw [if_pos source, if_pos (Or.inr destination)]
    omega
  · -- The source stays, and the destination does not come earlier.
    have kept : starts.valueAt edge.destination ≤
        problem.pushedBack starts name cycles edge.destination := le_pushedBack nonneg _
    rw [pushedBack, if_neg source]
    omega

/-- Pinned where it starts, an operation pushes nothing back. -/
theorem Least.put_valueAt (least : problem.Least pinned starts) (new : name ∉ pinned.names) :
    problem.Least (pinned.put name (starts.valueAt name)) starts where
  names := least.names
  distinct := least.distinct
  admissible := (admissible_put new).mpr ⟨least.admissible, rfl⟩
  least x admissible := least.least x ((admissible_put new).mp admissible).1

/-- An operation and all that depend on it can be pushed back, as long as none of them is pinned. -/
theorem Least.exists_admissible_put (least : problem.Least pinned starts) {slot : Int}
    (new : name ∉ pinned.names) (later : starts.valueAt name ≤ slot)
    (free : ∀ other ∈ pinned.names, ¬problem.Upstream name other) :
    ∃ x, problem.Admissible (pinned.put name slot) x := by
  -- Whatever comes after the operation is pushed back as far as the operation itself.
  have nonneg : 0 ≤ slot - starts.valueAt name := sub_nonneg.mpr later
  refine ⟨fun other => problem.pushedBack starts name (slot - starts.valueAt name) other,
    (admissible_put new).mpr ⟨⟨fun other member => ?_, fun edge member => ?_,
      fun other place isPinned => ?_⟩, ?_⟩⟩
  · have old := least.admissible.nonneg other member
    exact old.trans (by exact_mod_cast le_pushedBack nonneg other)
  · have old := least.admissible.ordered edge member
    exact_mod_cast pushedBack_ordered nonneg member (by exact_mod_cast old)
  · -- What is pinned is not pushed back.
    have member := NameTable.mem_names_of_get? isPinned
    have still : ¬(other = name ∨ problem.Upstream name other) := by
      rintro (rfl | leads)
      · exact new member
      · exact free other member leads
    rw [pushedBack, if_neg still, add_zero]
    exact least.admissible.held other place isPinned
  · rw [pushedBack, if_pos (Or.inl rfl), add_sub_cancel]

end CycleSchedule.Problem
