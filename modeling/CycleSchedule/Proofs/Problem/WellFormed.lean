import CycleSchedule.Graph.Basic
import CycleSchedule.Proofs.Narrated
import CycleSchedule.Proofs.NameTable
import CycleSchedule.Proofs.Graph.Walk
import Mathlib.Data.Set.List

/-! Well-formed problems over whole numbers are those that pass the check, and all look-ups in them
succeed. -/

namespace CycleSchedule

/-- The operator type as a document registers it. -/
def OperatorType.values (operatorType : OperatorType Int) : OperatorType Value :=
  ⟨operatorType.name, .int operatorType.latency, operatorType.limit.map .int⟩

/-- The dependence as a document registers it. -/
def Dependence.values (dependence : Dependence Int) : Dependence Value :=
  ⟨dependence.source, dependence.destination, .int dependence.distance⟩

/-- Distinct operator types are registered as distinct ones. -/
theorem OperatorType.values_injective : Function.Injective OperatorType.values := by
  rintro ⟨name, latency, limit⟩ ⟨name', latency', limit'⟩ same
  -- There is a limit on both sides or on neither.
  cases limit <;> cases limit' <;> simp_all [OperatorType.values]

/-- Distinct dependences are registered as distinct ones. -/
theorem Dependence.values_injective : Function.Injective Dependence.values := by
  rintro ⟨source, destination, distance⟩ ⟨source', destination', distance'⟩ same
  simpa [Dependence.values] using same

namespace Problem

/-- The problem as a document registers it. -/
def values (problem : Problem Int) : Problem Value :=
  ⟨problem.name, problem.operatorTypes.map (·.values), problem.operations,
    problem.dependences.map (·.values), problem.interval⟩

/-- Names are distinct, quantities within their ranges, and every reference is to a registration. -/
structure WellFormed (problem : Problem Int) : Prop where
  types : (problem.operatorTypes.map (·.name)).Nodup
  operations : problem.operationNames.Nodup
  latencies : ∀ operatorType ∈ problem.operatorTypes, 0 ≤ operatorType.latency
  limits : ∀ operatorType ∈ problem.operatorTypes, ∀ limit, operatorType.limit = some limit →
    1 ≤ limit
  registered : ∀ operation ∈ problem.operations,
    operation.operatorType ∈ problem.operatorTypes.map (·.name)
  endpoints : ∀ dependence ∈ problem.dependences, dependence.source ∈ problem.operationNames ∧
    dependence.destination ∈ problem.operationNames
  distances : ∀ dependence ∈ problem.dependences, 0 ≤ dependence.distance

/-- The variant allows the distances that are in use. -/
def Fits (problem : Problem Int) (variant : Variant) : Prop :=
  ∀ dependence ∈ problem.dependences, dependence.distance = 0 ∨ variant = .cyclic

/-- No name is reported as repeated just when all are distinct. -/
theorem repeated_eq_nil_iff {names : List String} : repeated names = [] ↔ names.Nodup := by
  simp only [repeated, List.filter_eq_nil_iff, List.mem_map, forall_exists_index, and_imp,
    forall_apply_eq_imp_iff₂, List.mem_eraseDups, decide_eq_true_eq, not_lt,
    List.nodup_iff_count_le_one]
  constructor
  · -- A name that does not occur at all occurs once at most as well.
    intro once name
    by_cases member : name ∈ names
    · exact once name member
    · rw [List.count_eq_zero_of_not_mem member]
      exact Nat.zero_le 1
  · exact fun once name _ => once name

/-- Nothing is reported of a type just when its latency and its limit are in range. -/
theorem typeViolations_values_eq_nil_iff {operatorType : OperatorType Int} :
    typeViolations operatorType.values = [] ↔ 0 ≤ operatorType.latency ∧
      ∀ limit, operatorType.limit = some limit → 1 ≤ limit := by
  simp only [typeViolations, OperatorType.values, List.append_eq_nil_iff, Value.isWholeFrom,
    decide_eq_true_eq]
  -- The latency and the limit are checked apart from each other.
  refine and_congr (by split <;> simp_all) ?_
  cases operatorType.limit with
  | none => simp
  | some limit =>
    by_cases inside : 1 ≤ limit <;> simp [inside]

/-- Nothing is reported of an operation just when its type is registered. -/
theorem operationViolations_values_eq_nil_iff {problem : Problem Int} {operation : Operation} :
    problem.values.operationViolations operation = [] ↔
      operation.operatorType ∈ problem.operatorTypes.map (·.name) := by
  -- Registered as values, the types keep their names.
  have names : problem.values.operatorTypes.map (·.name) = problem.operatorTypes.map (·.name) := by
    simp [values, OperatorType.values, Function.comp_def]
  rw [operationViolations, names]
  split <;> simp_all

/-- Nothing is reported of a dependence just when both endpoints are registered, its distance is in
range and the variant allows it. -/
theorem dependenceViolations_values_eq_nil_iff {problem : Problem Int} {variant : Variant}
    {dependence : Dependence Int} :
    problem.values.dependenceViolations variant dependence.values = [] ↔
      (dependence.source ∈ problem.operationNames ∧
        dependence.destination ∈ problem.operationNames) ∧ 0 ≤ dependence.distance ∧
          (dependence.distance = 0 ∨ variant = .cyclic) := by
  have names : problem.values.operationNames = problem.operationNames := rfl
  simp only [dependenceViolations, List.append_eq_nil_iff, List.map_eq_nil_iff, names,
    List.filter_eq_nil_iff, List.forall_mem_cons, Dependence.values, List.not_mem_nil,
    Value.isWholeFrom, Value.isZero, Variant.allowsDistances]
  -- A distance is refused for being negative, or for not being zero where none is allowed.
  by_cases negative : dependence.distance < 0
  · simp [negative]
  · by_cases zero : dependence.distance = 0 <;> by_cases cyclic : variant = .cyclic <;>
      simp [zero, cyclic, not_lt.mp negative]

/-- A problem passes the check for a variant just when it is well formed and fits the variant. -/
theorem check_values_iff {problem : Problem Int} {variant : Variant} :
    problem.values.check (some variant) = .ok () ↔ problem.WellFormed ∧ problem.Fits variant := by
  -- A check passes if it finds nothing to report.
  have checked : problem.values.check (some variant) = .ok () ↔
      problem.values.violations variant = [] := by
    simp only [check, Option.getD_some]
    cases problem.values.violations variant <;> simp
  have types : (problem.values.operatorTypes.map (·.name)) =
      problem.operatorTypes.map (·.name) := by
    simp [values, OperatorType.values, Function.comp_def]
  rw [checked, violations, types]
  -- Every part of the check stands for one of the fields.
  simp only [List.append_eq_nil_iff, List.map_eq_nil_iff, repeated_eq_nil_iff,
    List.flatMap_eq_nil_iff, operationViolations_values_eq_nil_iff]
  simp only [values, List.forall_mem_map]
  change (((_ ∧ problem.operationNames.Nodup) ∧ _) ∧ _) ∧
    (∀ dependence ∈ problem.dependences,
      problem.values.dependenceViolations variant dependence.values = []) ↔ _
  simp only [typeViolations_values_eq_nil_iff, dependenceViolations_values_eq_nil_iff]
  constructor
  · rintro ⟨⟨⟨⟨types, operations⟩, quantities⟩, registered⟩, dependences⟩
    exact ⟨⟨types, operations, fun t member => (quantities t member).1,
      fun t member => (quantities t member).2, registered, fun d member => (dependences d member).1,
      fun d member => (dependences d member).2.1⟩, fun d member => (dependences d member).2.2⟩
  · rintro ⟨wellFormed, fits⟩
    exact ⟨⟨⟨⟨wellFormed.types, wellFormed.operations⟩, fun t member =>
      ⟨wellFormed.latencies t member, wellFormed.limits t member⟩⟩, wellFormed.registered⟩,
      fun d member => ⟨wellFormed.endpoints d member, wellFormed.distances d member,
        fits d member⟩⟩

/-- What was written item by item reads back item by item. -/
private theorem mapM_some {α β : Type} (read : α → Option β) (write : β → α)
    (back : ∀ b, read (write b) = some b) (items : List β) :
    (items.map write).mapM read = some items := by
  induction items with
  | nil => rfl
  | cons item items ih => simp [List.mapM_cons, back, ih]

/-- Nothing is lost in what a document registers. -/
theorem whole_values (problem : Problem Int) : problem.values.whole = .ok problem := by
  -- Each part reads back as what was written.
  have types : problem.values.operatorTypes.mapM wholeType? = some problem.operatorTypes := by
    refine mapM_some wholeType? OperatorType.values (fun operatorType => ?_) _
    obtain ⟨name, latency, limit⟩ := operatorType
    cases limit <;> rfl
  have dependences : problem.values.dependences.mapM wholeDependence? = some problem.dependences :=
    mapM_some wholeDependence? Dependence.values (fun _ => rfl) problem.dependences
  rw [whole, types, dependences]
  rfl

/-- A value that passes for a whole number is one. -/
theorem exists_int_of_isWholeFrom {least : Int} {value : Value}
    (whole : value.isWholeFrom least = true) : ∃ n, value = .int n := by
  -- Only whole numbers are compared with the bound, all other values are refused.
  unfold Value.isWholeFrom at whole
  split at whole
  · exact ⟨_, rfl⟩
  · simp at whole

/-- An operator type without violations has whole numbers for its quantities. -/
theorem exists_values_of_typeViolations {operatorType : OperatorType Value}
    (fine : typeViolations operatorType = []) :
    ∃ whole : OperatorType Int, whole.values = operatorType := by
  obtain ⟨name, latency, limit⟩ := operatorType
  simp only [typeViolations, List.append_eq_nil_iff, ite_eq_left_iff, reduceCtorEq, imp_false,
    Bool.not_eq_true, Bool.not_eq_false] at fine
  obtain ⟨n, rfl⟩ := exists_int_of_isWholeFrom fine.1
  -- A limit may be missing; if there is one it is a whole number too.
  cases limit with
  | none => exact ⟨⟨name, n, none⟩, rfl⟩
  | some limit =>
    have inside : limit.isWholeFrom 1 = true := by simpa using fine.2
    obtain ⟨l, rfl⟩ := exists_int_of_isWholeFrom inside
    exact ⟨⟨name, n, some l⟩, rfl⟩

/-- A dependence without violations has a whole number for its distance. -/
theorem exists_values_of_dependenceViolations {problem : Problem Value} {variant : Variant}
    {dependence : Dependence Value} (fine : problem.dependenceViolations variant dependence = []) :
    ∃ whole : Dependence Int, whole.values = dependence := by
  obtain ⟨source, destination, distance⟩ := dependence
  -- A distance that is not a whole number would be a violation.
  have inside : distance.isWholeFrom 0 = true := by
    by_contra refused
    rw [Bool.not_eq_true] at refused
    simp [dependenceViolations, refused] at fine
  obtain ⟨n, rfl⟩ := exists_int_of_isWholeFrom inside
  exact ⟨⟨source, destination, n⟩, rfl⟩

/-- A problem that passes the check is what a document registers of one over whole numbers. -/
theorem exists_values_of_check {problem : Problem Value} {variant : Variant}
    (checked : problem.check (some variant) = .ok ()) :
    ∃ task : Problem Int, task.values = problem ∧ task.WellFormed ∧ task.Fits variant := by
  -- Nothing has been reported, neither for the operator types nor for the dependences.
  have fine : problem.violations variant = [] := by
    simp only [check, Option.getD_some] at checked
    split at checked
    · rename_i empty
      exact List.isEmpty_iff.mp empty
    · simp at checked
  simp only [violations, List.append_eq_nil_iff, List.flatMap_eq_nil_iff] at fine
  obtain ⟨⟨⟨_, quantities⟩, _⟩, ends⟩ := fine
  -- Each registration is what a document has for one over whole numbers, so all of them are.
  obtain ⟨operatorTypes, typesSame⟩ :
      problem.operatorTypes ∈ Set.range (List.map OperatorType.values) := by
    rw [Set.range_list_map]
    exact fun operatorType member => exists_values_of_typeViolations (quantities _ member)
  obtain ⟨dependences, dependencesSame⟩ :
      problem.dependences ∈ Set.range (List.map Dependence.values) := by
    rw [Set.range_list_map]
    exact fun dependence member => exists_values_of_dependenceViolations (ends _ member)
  let task : Problem Int :=
    ⟨problem.name, operatorTypes, problem.operations, dependences, problem.interval⟩
  have same : task.values = problem := by
    simp only [task, values, typesSame, dependencesSame]
  -- What was registered has passed the check, and so the problem is well formed.
  refine ⟨task, same, check_values_iff.mp ?_⟩
  rwa [same]

/-- A walk over whole numbers leads where it leads as a document registers it. -/
private theorem leads_values {start finish : String} {walk : List (Dependence Int)} :
    Leads start (walk.map (·.values)) finish ↔ Leads start walk finish := by
  induction walk generalizing start with
  | nil => rfl
  | cons edge walk ih => exact and_congr_right fun _ => ih

/-- What a document registers has the same cycles. -/
theorem hasCycle_values {problem : Problem Int} :
    HasCycle problem.values.dependences ↔ HasCycle problem.dependences := by
  have sources (walk : List (Dependence Int)) :
      (walk.map (·.values)).map (·.source) = walk.map (·.source) := by
    simp [Dependence.values, Function.comp_def]
  constructor
  · rintro ⟨walk, nonempty, within, ⟨node, closed⟩, distinct⟩
    -- All edges of the cycle are registered dependences, so the cycle is one over whole numbers.
    obtain ⟨whole, rfl⟩ : walk ∈ Set.range (List.map Dependence.values) := by
      rw [Set.range_list_map]
      exact fun edge member => (List.mem_map.mp (within edge member)).imp fun _ both => both.2
    refine ⟨whole, by simpa using nonempty, fun edge member => ?_, ⟨node, leads_values.mp closed⟩,
      sources whole ▸ distinct⟩
    -- An edge that is registered as another one is that one.
    obtain ⟨found, foundMember, same⟩ := List.mem_map.mp (within _ (List.mem_map_of_mem member))
    exact Dependence.values_injective same ▸ foundMember
  · rintro ⟨walk, nonempty, within, ⟨node, closed⟩, distinct⟩
    exact ⟨walk.map (·.values), by simpa using nonempty,
      List.forall_mem_map.mpr fun edge member => List.mem_map_of_mem (within edge member),
      ⟨node, leads_values.mpr closed⟩, (sources walk).symm ▸ distinct⟩

variable {problem : Problem Int} {name : String}

/-- The latency of the operation of a name, zero if there is none. -/
def latencyOf (problem : Problem Int) (name : String) : Int :=
  (((problem.operation? name).bind fun operation =>
    problem.operatorType? operation.operatorType).map (·.latency)).getD 0

/-- The name of an operation is one of the names. -/
theorem mem_operationNames {ν : Type} {problem : Problem ν} {operation : Operation}
    (member : operation ∈ problem.operations) : operation.name ∈ problem.operationNames :=
  List.mem_map.mpr ⟨operation, member, rfl⟩

/-- An operation is found under a name if the name is one of theirs. -/
theorem operation?_isSome {ν : Type} {problem : Problem ν} {name : String} :
    (problem.operation? name).isSome = true ↔ name ∈ problem.operationNames := by
  simp [operation?, operationNames, List.find?_isSome]

/-- A name that is not registered counts as latency 0. -/
theorem latencyOf_of_not_mem (unknown : name ∉ problem.operationNames) :
    problem.latencyOf name = 0 := by
  have none_ : problem.operation? name = none :=
    Option.not_isSome_iff_eq_none.mp fun found => unknown (operation?_isSome.mp found)
  -- Without an operation there is no type whose latency it has.
  rw [latencyOf, none_]
  rfl

/-- Operations of one name are one operation. -/
theorem WellFormed.eq_of_operation_name (wellFormed : problem.WellFormed)
    {first second : Operation} (firstMember : first ∈ problem.operations)
    (secondMember : second ∈ problem.operations) (same : first.name = second.name) :
    first = second :=
  List.inj_on_of_nodup_map wellFormed.operations firstMember secondMember same

/-- Operator types of one name are one type. -/
theorem WellFormed.eq_of_type_name (wellFormed : problem.WellFormed)
    {first second : OperatorType Int} (firstMember : first ∈ problem.operatorTypes)
    (secondMember : second ∈ problem.operatorTypes) (same : first.name = second.name) :
    first = second :=
  List.inj_on_of_nodup_map wellFormed.types firstMember secondMember same

/-- An operation is found under its name. -/
theorem WellFormed.operation?_name (wellFormed : problem.WellFormed) {operation : Operation}
    (member : operation ∈ problem.operations) :
    problem.operation? operation.name = some operation := by
  -- What is found first under a name is the only one, since names are distinct.
  cases found : problem.operation? operation.name with
  | none => simpa using List.find?_eq_none.mp found operation member
  | some other =>
    have same : other.name = operation.name := by simpa using List.find?_some found
    rw [wellFormed.eq_of_operation_name (List.mem_of_find?_eq_some found) member same]

/-- An operator type is found under its name. -/
theorem WellFormed.operatorType?_name (wellFormed : problem.WellFormed)
    {operatorType : OperatorType Int} (member : operatorType ∈ problem.operatorTypes) :
    problem.operatorType? operatorType.name = some operatorType := by
  -- What is found first under a name is the only type of it, since names are distinct.
  cases found : problem.operatorType? operatorType.name with
  | none => simpa using List.find?_eq_none.mp found operatorType member
  | some other =>
    have same : other.name = operatorType.name := by simpa using List.find?_some found
    rw [wellFormed.eq_of_type_name (List.mem_of_find?_eq_some found) member same]

/-- Every operation is of a registered type, which has its latency. -/
theorem WellFormed.exists_operatorType (wellFormed : problem.WellFormed) {operation : Operation}
    (member : operation ∈ problem.operations) :
    ∃ operatorType ∈ problem.operatorTypes, operatorType.name = operation.operatorType ∧
      problem.operatorTypeOf operation = .ok operatorType ∧
      problem.latencyOf operation.name = operatorType.latency := by
  -- The type is registered under the name that the operation gives.
  obtain ⟨operatorType, typeMember, same⟩ :=
    List.mem_map.mp (wellFormed.registered operation member)
  have found := wellFormed.operatorType?_name typeMember
  rw [same] at found
  refine ⟨operatorType, typeMember, same, by simp [operatorTypeOf, found], ?_⟩
  simp [latencyOf, wellFormed.operation?_name member, found]

/-- In a well-formed problem the look-up of a latency succeeds. -/
theorem WellFormed.latencyNamed (wellFormed : problem.WellFormed)
    (member : name ∈ problem.operationNames) :
    problem.latencyNamed name = .ok (problem.latencyOf name) := by
  -- The operation is found by its name, and its type is registered.
  obtain ⟨operation, operationMember, rfl⟩ := List.mem_map.mp member
  obtain ⟨operatorType, _, _, found, latency⟩ := wellFormed.exists_operatorType operationMember
  simp [Problem.latencyNamed, operationNamed, wellFormed.operation?_name operationMember, found,
    latency]

/-- No latency of a well-formed problem is negative. -/
theorem WellFormed.latencyOf_nonneg (wellFormed : problem.WellFormed) (name : String) :
    0 ≤ problem.latencyOf name := by
  -- The latency is that of a registered type, or zero if there is none.
  unfold latencyOf
  cases found : (problem.operation? name).bind fun operation =>
      problem.operatorType? operation.operatorType with
  | none => exact le_rfl
  | some operatorType =>
    obtain ⟨_, _, located⟩ := Option.bind_eq_some_iff.mp found
    exact wellFormed.latencies operatorType (List.mem_of_find?_eq_some located)

/-- The graph of all dependences, or of those within one iteration only. -/
def graph (problem : Problem Int) (zeroDistanceOnly : Bool) : Graph Int :=
  ⟨problem.operationNames, problem.operationNames.map fun name => (name, problem.latencyOf name),
    problem.dependences.filter fun dependence =>
      !zeroDistanceOnly || dependence.distance = 0⟩

/-- The graph of a well-formed problem can be built. -/
theorem WellFormed.ofProblem (wellFormed : problem.WellFormed) (zeroDistanceOnly : Bool) :
    Graph.ofProblem problem zeroDistanceOnly = .ok (problem.graph zeroDistanceOnly) := by
  -- All latencies can be looked up.
  have latencies : (problem.operations.mapM fun operation => do
      let operatorType ← problem.operatorTypeOf operation
      return (operation.name, operatorType.latency)) =
        .ok (problem.operationNames.map fun name => (name, problem.latencyOf name)) := by
    have each : ∀ operation ∈ problem.operations, (do
        let operatorType ← problem.operatorTypeOf operation
        return (operation.name, operatorType.latency) : Except Fault (String × Int)) =
          .ok (operation.name, problem.latencyOf operation.name) := fun operation member => by
      obtain ⟨operatorType, _, _, found, latency⟩ := wellFormed.exists_operatorType member
      simp [found, latency]
    rw [mapM_ok _ each]
    simp [operationNames, Function.comp_def]
  -- The ends of all edges are nodes.
  have edges : ((problem.graph zeroDistanceOnly).edges.forM fun edge => do
      Graph.requireNode problem.operationNames edge.source
      Graph.requireNode problem.operationNames edge.destination) = .ok () := by
    refine forM_ok fun edge member => ?_
    obtain ⟨source, destination⟩ := wellFormed.endpoints edge (List.mem_filter.mp member).1
    simp [Graph.requireNode, source, destination]
  have distinct : ((problem.operationNames.map fun name =>
      (name, problem.latencyOf name)).map (·.1)).Nodup := by
    simpa [Function.comp_def] using wellFormed.operations
  simp only [Graph.ofProblem, latencies, ok_bind]
  rw [NameTable.ofPairs_of_nodup distinct]
  exact congrArg (fun checked : Except Fault Unit =>
    checked >>= fun _ => .ok (problem.graph zeroDistanceOnly)) edges

/-- The graph knows the latency of each operation. -/
theorem latency_graph (zeroDistanceOnly : Bool) (member : name ∈ problem.operationNames) :
    (problem.graph zeroDistanceOnly).latency name = problem.latencyOf name := by
  simp [Graph.latency, graph, NameTable.get?_map_pair, member]

end Problem

end CycleSchedule
