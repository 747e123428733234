import CycleSchedule.Proofs.Phrase
import CycleSchedule.Proofs.Problem.WellFormed

/-! The check of registrations reports every violation there is and no other, and it blames each
registration that is at fault once. -/

namespace CycleSchedule

variable {value : Value} {least : Int}

/-- A whole number, which a truth value is not, that does not lie below a bound. -/
def Value.AtLeast (least : Int) (value : Value) : Prop := ∃ n : Int, value = .int n ∧ least ≤ n

/-- The test for a whole number from a bound on tests just that. -/
theorem Value.isWholeFrom_iff : value.isWholeFrom least = true ↔ value.AtLeast least := by
  constructor
  · intro whole
    -- What passes the test is an integer, and the test compares it with the bound.
    obtain ⟨n, rfl⟩ := Problem.exists_int_of_isWholeFrom whole
    exact ⟨n, rfl, by simpa [isWholeFrom] using whole⟩
  · rintro ⟨n, rfl, inside⟩
    simpa [isWholeFrom] using inside

/-- A value from 1 on is one from 0 on that is not 0. -/
theorem Value.atLeast_one_iff : value.AtLeast 1 ↔ value.AtLeast 0 ∧ value ≠ .int 0 := by
  constructor
  · -- From 1 on a number is positive, so it is not 0.
    rintro ⟨n, rfl, positive⟩
    refine ⟨⟨n, rfl, by omega⟩, fun zero => ?_⟩
    cases zero
    exact absurd positive (by decide)
  · -- A number from 0 on that is not 0 is at least 1.
    rintro ⟨⟨n, rfl, nonneg⟩, nonzero⟩
    have : n ≠ 0 := fun zero => nonzero (by rw [zero])
    exact ⟨n, rfl, by omega⟩

/-- Of the values that equal zero, a whole number is only the one. -/
theorem Value.isZero_iff (whole : value.AtLeast least) : value.isZero = true ↔ value = .int 0 := by
  obtain ⟨n, rfl, _⟩ := whole
  simp [isZero]

/-- A name is repeated with its count, which is more than one. -/
theorem mem_repeated_iff {names : List String} {name : String} {count : Nat} :
    (name, count) ∈ repeated names ↔ 1 < names.count name ∧ count = names.count name := by
  simp only [repeated, List.mem_filter, List.mem_map, List.mem_eraseDups, Prod.mk.injEq,
    decide_eq_true_eq]
  constructor
  · rintro ⟨⟨_, _, rfl, rfl⟩, often⟩
    exact ⟨often, rfl⟩
  · rintro ⟨often, rfl⟩
    -- What is counted more than once is there.
    exact ⟨⟨name, List.count_pos_iff.mp (Nat.zero_lt_of_lt often), rfl, rfl⟩, often⟩

/-- Without duplicates every name stands once. -/
theorem nodup_eraseDups : ∀ names : List String, names.eraseDups.Nodup
  | [] => by simp
  | name :: names => by
    -- What is left behind the first name has none of its kind.
    rw [List.eraseDups_cons, List.nodup_cons, List.mem_eraseDups]
    exact ⟨by simp, nodup_eraseDups _⟩
termination_by names => names.length
decreasing_by exact Nat.lt_succ_of_le (List.length_filter_le _ _)

namespace Problem

variable {problem : Problem Value} {variant : Variant} {violation : Violation}

/-- What is wrong with the registrations of a problem, by the rule that is broken. -/
inductive Occurs (problem : Problem Value) (variant : Variant) : Violation → Prop
  | repeatedType {name : String}
      (often : 1 < (problem.operatorTypes.map (·.name)).count name) :
      Occurs problem variant
        (.repeatedType name ((problem.operatorTypes.map (·.name)).count name))
  | repeatedOperation {name : String} (often : 1 < problem.operationNames.count name) :
      Occurs problem variant (.repeatedOperation name (problem.operationNames.count name))
  | badLatency {operatorType : OperatorType Value} (member : operatorType ∈ problem.operatorTypes)
      (bad : ¬operatorType.latency.AtLeast 0) :
      Occurs problem variant (.badLatency operatorType.name operatorType.latency)
  | badLimit {operatorType : OperatorType Value} {limit : Value}
      (member : operatorType ∈ problem.operatorTypes) (limited : operatorType.limit = some limit)
      (bad : ¬limit.AtLeast 1) :
      Occurs problem variant (.badLimit operatorType.name limit)
  | unregisteredType {operation : Operation} (member : operation ∈ problem.operations)
      (absent : operation.operatorType ∉ problem.operatorTypes.map (·.name)) :
      Occurs problem variant (.unregisteredType operation.name operation.operatorType)
  | unknownEndpoint {dependence : Dependence Value} {endpoint : String}
      (member : dependence ∈ problem.dependences)
      (isEnd : endpoint = dependence.source ∨ endpoint = dependence.destination)
      (unknown : endpoint ∉ problem.operationNames) :
      Occurs problem variant (.unknownEndpoint dependence endpoint)
  | badDistance {dependence : Dependence Value} (member : dependence ∈ problem.dependences)
      (bad : ¬dependence.distance.AtLeast 0) :
      Occurs problem variant (.badDistance dependence)
  | unsupportedDistance {dependence : Dependence Value}
      (member : dependence ∈ problem.dependences) (delayed : dependence.distance.AtLeast 1)
      (unsupported : variant ≠ .cyclic) :
      Occurs problem variant (.unsupportedDistance dependence variant)

/-- The registrations that break a rule: names that are taken more than once, operator types with a
bad latency or a bad limit, operations of unregistered types, and ends of dependences that are no
operations. -/
inductive Blamed (problem : Problem Value) : String → Prop
  | repeatedType {name : String}
      (often : 1 < (problem.operatorTypes.map (·.name)).count name) : Blamed problem name
  | repeatedOperation {name : String} (often : 1 < problem.operationNames.count name) :
      Blamed problem name
  | badLatency {operatorType : OperatorType Value} (member : operatorType ∈ problem.operatorTypes)
      (bad : ¬operatorType.latency.AtLeast 0) : Blamed problem operatorType.name
  | badLimit {operatorType : OperatorType Value} {limit : Value}
      (member : operatorType ∈ problem.operatorTypes) (limited : operatorType.limit = some limit)
      (bad : ¬limit.AtLeast 1) : Blamed problem operatorType.name
  | unregisteredType {operation : Operation} (member : operation ∈ problem.operations)
      (absent : operation.operatorType ∉ problem.operatorTypes.map (·.name)) :
      Blamed problem operation.name
  | unknownEndpoint {dependence : Dependence Value} {endpoint : String}
      (member : dependence ∈ problem.dependences)
      (isEnd : endpoint = dependence.source ∨ endpoint = dependence.destination)
      (unknown : endpoint ∉ problem.operationNames) : Blamed problem endpoint

/-- All rules are kept: names are distinct, quantities are whole numbers within their ranges, every
reference is to a registration, and no distance is used that the variant does not support. -/
structure Sound (problem : Problem Value) (variant : Variant) : Prop where
  types : (problem.operatorTypes.map (·.name)).Nodup
  operations : problem.operationNames.Nodup
  latencies : ∀ operatorType ∈ problem.operatorTypes, operatorType.latency.AtLeast 0
  limits : ∀ operatorType ∈ problem.operatorTypes, ∀ limit, operatorType.limit = some limit →
    limit.AtLeast 1
  registered : ∀ operation ∈ problem.operations,
    operation.operatorType ∈ problem.operatorTypes.map (·.name)
  endpoints : ∀ dependence ∈ problem.dependences, dependence.source ∈ problem.operationNames ∧
    dependence.destination ∈ problem.operationNames
  distances : ∀ dependence ∈ problem.dependences, dependence.distance.AtLeast 0
  undelayed : variant ≠ .cyclic → ∀ dependence ∈ problem.dependences, dependence.distance = .int 0

/-- What an operator type can violate: its latency, or its limit if it has one. -/
theorem mem_typeViolations_iff {operatorType : OperatorType Value} :
    violation ∈ typeViolations operatorType ↔
      (violation = .badLatency operatorType.name operatorType.latency ∧
          ¬operatorType.latency.AtLeast 0) ∨
        ∃ limit, operatorType.limit = some limit ∧ violation = .badLimit operatorType.name limit ∧
          ¬limit.AtLeast 1 := by
  rw [typeViolations, List.mem_append]
  -- The latency and the limit are judged apart from each other.
  refine or_congr ?_ ?_
  · by_cases fine : operatorType.latency.AtLeast 0
    · simp [Value.isWholeFrom_iff, fine]
    · simp [Value.isWholeFrom_iff, fine]
  · cases operatorType.limit with
    | none => simp
    | some limit => by_cases fine : limit.AtLeast 1 <;> simp [Value.isWholeFrom_iff, fine]

/-- What an operation can violate: its type must be registered. -/
theorem mem_operationViolations_iff {operation : Operation} :
    violation ∈ problem.operationViolations operation ↔
      violation = .unregisteredType operation.name operation.operatorType ∧
        operation.operatorType ∉ problem.operatorTypes.map (·.name) := by
  rw [operationViolations]
  split <;> simp_all

/-- What a dependence can violate: its two endpoints, its distance, and the distances that the
variant allows. -/
theorem mem_dependenceViolations_iff {dependence : Dependence Value} :
    violation ∈ problem.dependenceViolations variant dependence ↔
      (∃ endpoint, (endpoint = dependence.source ∨ endpoint = dependence.destination) ∧
          endpoint ∉ problem.operationNames ∧ violation = .unknownEndpoint dependence endpoint) ∨
        (violation = .badDistance dependence ∧ ¬dependence.distance.AtLeast 0) ∨
        (violation = .unsupportedDistance dependence variant ∧ dependence.distance.AtLeast 1 ∧
          variant ≠ .cyclic) := by
  rw [dependenceViolations, List.mem_append]
  refine or_congr ?_ ?_
  · -- An endpoint is reported if no operation has its name.
    simp only [List.mem_map, List.mem_filter, List.mem_cons, List.not_mem_nil, or_false,
      Bool.not_eq_true', List.contains_eq_mem, decide_eq_false_iff_not, and_assoc]
    exact exists_congr fun endpoint => and_congr_right' (and_congr_right' eq_comm)
  · -- A distance that is not a whole number from zero on is bad whatever the variant is.
    by_cases fine : dependence.distance.AtLeast 0
    · rw [Value.atLeast_one_iff, ne_eq, ← Value.isZero_iff fine, Value.isWholeFrom_iff.mpr fine]
      -- A distance of zero is no violation, nor is any distance in the cyclic variant.
      by_cases zero : dependence.distance.isZero = true <;>
        by_cases cyclic : variant = .cyclic <;>
          simp [zero, cyclic, fine, Variant.allowsDistances]
    · have refused : dependence.distance.isWholeFrom 0 = false := by
        rwa [← Bool.not_eq_true, Value.isWholeFrom_iff]
      -- A bad distance is not reported a second time as unsupported.
      have tooSmall : ¬dependence.distance.AtLeast 1 := fun delayed =>
        fine (Value.atLeast_one_iff.mp delayed).1
      simp [refused, fine, tooSmall]

/-- What is found is what is wrong. -/
theorem mem_violations_iff :
    violation ∈ problem.violations variant ↔ problem.Occurs variant violation := by
  -- The list is put together from five parts, each of which is known by what it reports.
  simp only [violations, List.mem_append, List.mem_map, List.mem_flatMap, Prod.exists]
  simp only [mem_repeated_iff, mem_typeViolations_iff, mem_operationViolations_iff,
    mem_dependenceViolations_iff]
  constructor
  · -- A violation that is found is one that occurs: part by part, in the order of the list.
    rintro ((((⟨name, _, ⟨often, rfl⟩, rfl⟩ | ⟨name, _, ⟨often, rfl⟩, rfl⟩) |
      ⟨operatorType, member, ⟨rfl, bad⟩ | ⟨limit, limited, rfl, bad⟩⟩) |
      ⟨operation, member, rfl, absent⟩) |
      ⟨dependence, member, ⟨endpoint, isEnd, unknown, rfl⟩ | ⟨rfl, bad⟩ |
        ⟨rfl, delayed, unsupported⟩⟩)
    · exact .repeatedType often
    · exact .repeatedOperation often
    · exact .badLatency member bad
    · exact .badLimit member limited bad
    · exact .unregisteredType member absent
    · exact .unknownEndpoint member isEnd unknown
    · exact .badDistance member bad
    · exact .unsupportedDistance member delayed unsupported
  · -- One that occurs is found in the part that looks for its kind.
    intro occurs
    cases occurs with
    | repeatedType often => exact .inl (.inl (.inl (.inl ⟨_, _, ⟨often, rfl⟩, rfl⟩)))
    | repeatedOperation often => exact .inl (.inl (.inl (.inr ⟨_, _, ⟨often, rfl⟩, rfl⟩)))
    | badLatency member bad => exact .inl (.inl (.inr ⟨_, member, .inl ⟨rfl, bad⟩⟩))
    | badLimit member limited bad =>
      exact .inl (.inl (.inr ⟨_, member, .inr ⟨_, limited, rfl, bad⟩⟩))
    | unregisteredType member absent => exact .inl (.inr ⟨_, member, rfl, absent⟩)
    | unknownEndpoint member isEnd unknown =>
      exact .inr ⟨_, member, .inl ⟨_, isEnd, unknown, rfl⟩⟩
    | badDistance member bad => exact .inr ⟨_, member, .inr (.inl ⟨rfl, bad⟩)⟩
    | unsupportedDistance member delayed unsupported =>
      exact .inr ⟨_, member, .inr (.inr ⟨rfl, delayed, unsupported⟩)⟩

/-- A registration is to blame if something occurs that blames it. -/
theorem blamed_iff {name : String} : problem.Blamed name ↔
    ∃ violation, problem.Occurs variant violation ∧ violation.culprit? = some name := by
  constructor
  · intro blamed
    -- Each way to be blamed is one way in which a violation occurs.
    cases blamed with
    | repeatedType often => exact ⟨_, .repeatedType often, rfl⟩
    | repeatedOperation often => exact ⟨_, .repeatedOperation often, rfl⟩
    | badLatency member bad => exact ⟨_, .badLatency member bad, rfl⟩
    | badLimit member limited bad => exact ⟨_, .badLimit member limited bad, rfl⟩
    | unregisteredType member absent => exact ⟨_, .unregisteredType member absent, rfl⟩
    | unknownEndpoint member isEnd unknown =>
      exact ⟨_, .unknownEndpoint member isEnd unknown, rfl⟩
  · rintro ⟨violation, occurs, isCulprit⟩
    -- What is wrong with a distance blames no registration.
    cases occurs with
    | repeatedType often =>
      cases isCulprit
      exact .repeatedType often
    | repeatedOperation often =>
      cases isCulprit
      exact .repeatedOperation often
    | badLatency member bad =>
      cases isCulprit
      exact .badLatency member bad
    | badLimit member limited bad =>
      cases isCulprit
      exact .badLimit member limited bad
    | unregisteredType member absent =>
      cases isCulprit
      exact .unregisteredType member absent
    | unknownEndpoint member isEnd unknown =>
      cases isCulprit
      exact .unknownEndpoint member isEnd unknown
    | badDistance member bad => cases isCulprit
    | unsupportedDistance member delayed unsupported => cases isCulprit

/-- All rules are kept if nothing is wrong. -/
theorem sound_iff : problem.Sound variant ↔ ∀ violation, ¬problem.Occurs variant violation := by
  constructor
  · -- Each kind of violation contradicts the one condition that it is about.
    intro sound violation occurs
    cases occurs with
    | repeatedType often =>
      exact absurd often (not_lt.mpr (List.nodup_iff_count_le_one.mp sound.types _))
    | repeatedOperation often =>
      exact absurd often (not_lt.mpr (List.nodup_iff_count_le_one.mp sound.operations _))
    | badLatency member bad => exact bad (sound.latencies _ member)
    | badLimit member limited bad => exact bad (sound.limits _ member _ limited)
    | unregisteredType member absent => exact absent (sound.registered _ member)
    | unknownEndpoint member isEnd unknown =>
      -- Either end of the dependence may be the unknown one.
      rcases isEnd with rfl | rfl
      · exact unknown (sound.endpoints _ member).1
      · exact unknown (sound.endpoints _ member).2
    | badDistance member bad => exact bad (sound.distances _ member)
    | unsupportedDistance member delayed unsupported =>
      exact (Value.atLeast_one_iff.mp delayed).2 (sound.undelayed unsupported _ member)
  · -- A condition that failed would be a violation, and there is none.
    intro none
    -- That distances are numbers comes first, since only those can be unsupported.
    have distances : ∀ dependence ∈ problem.dependences, dependence.distance.AtLeast 0 :=
      fun dependence member => by_contra fun bad => none _ (.badDistance member bad)
    exact
      { types := List.nodup_iff_count_le_one.mpr fun name =>
          not_lt.mp fun often => none _ (.repeatedType often)
        operations := List.nodup_iff_count_le_one.mpr fun name =>
          not_lt.mp fun often => none _ (.repeatedOperation often)
        latencies := fun operatorType member => by_contra fun bad => none _ (.badLatency member bad)
        limits := fun operatorType member limit limited =>
          by_contra fun bad => none _ (.badLimit member limited bad)
        registered := fun operation member =>
          by_contra fun absent => none _ (.unregisteredType member absent)
        endpoints := fun dependence member =>
          ⟨by_contra fun unknown => none _ (.unknownEndpoint member (.inl rfl) unknown),
            by_contra fun unknown => none _ (.unknownEndpoint member (.inr rfl) unknown)⟩
        distances := distances
        undelayed := fun unsupported dependence member => by_contra fun nonzero =>
          none _ (.unsupportedDistance member
            (Value.atLeast_one_iff.mpr ⟨distances dependence member, nonzero⟩) unsupported) }

/-- A malformed problem is reported with the registrations that its violations blame. -/
theorem mem_entities_malformed_iff {name : String} {violations : List Violation} (label : String) :
    name ∈ (Fault.malformed label violations).entities ↔
      ∃ violation ∈ violations, violation.culprit? = some name := by
  rw [Fault.entities, List.mem_eraseDups, List.mem_filterMap]

/-- The message about a malformed problem can be written if all that it tells can. -/
theorem isWritable_message_malformed (name : String) (violations : List Violation) :
    (Fault.malformed name violations).message.isWritable =
      violations.all fun violation => violation.message.isWritable := by
  simp [Fault.message, List.all_map, Function.comp_def]

/-- The check passes exactly the problems that keep all rules. It refuses every other one as
malformed, with all that is wrong with it, and names each registration that is to blame once, unless
something that it has to tell cannot be written. -/
theorem check_is_exact (problem : Problem Value) (variant : Option Variant) :
    (reported (problem.check variant) = .ok () ↔
      problem.Sound (variant.getD problem.inferVariant)) ∧
      (reported (problem.check variant) = .ok () ∨
        ∃ violations, reported (problem.check variant) =
            (if violations.all fun violation => violation.message.isWritable then
              .error (.malformed problem.name violations)
            else .error .unwritable) ∧
          (∀ violation, violation ∈ violations ↔
            problem.Occurs (variant.getD problem.inferVariant) violation) ∧
          (Fault.malformed problem.name violations).entities.Nodup ∧
          ∀ name, name ∈ (Fault.malformed problem.name violations).entities ↔
            problem.Blamed name) := by
  have passes : reported (problem.check variant) = .ok () ↔
      problem.violations (variant.getD problem.inferVariant) = [] := by
    rw [reported_eq_ok_iff, check]
    cases problem.violations (variant.getD problem.inferVariant) <;> simp
  refine ⟨?_, ?_⟩
  · rw [passes, sound_iff, List.eq_nil_iff_forall_not_mem]
    exact forall_congr' fun violation => not_congr mem_violations_iff
  · by_cases empty : problem.violations (variant.getD problem.inferVariant) = []
    · exact .inl (passes.mpr empty)
    · refine .inr ⟨_, ?_, fun _ => mem_violations_iff, nodup_eraseDups _, fun name => ?_⟩
      · -- All texts are put together before the problem is refused.
        rw [check, if_neg (by simpa using empty), reported_error_eq, isWritable_message_malformed]
      · rw [mem_entities_malformed_iff, blamed_iff]
        exact exists_congr fun violation => and_congr_left' mem_violations_iff

/-- A single operator type of some latency. -/
def backwards (latency : Int) : Problem Value :=
  ⟨"backwards", [⟨"mul", .int latency, none⟩], [], [], none⟩

/-- A negative latency is all that is wrong there. -/
theorem check_backwards {latency : Int} (negative : latency < 0) :
    (backwards latency).check (some .basic) =
      .error (.malformed "backwards" [.badLatency "mul" (.int latency)]) := by
  -- Nothing is registered twice, so the latency is all there is to report.
  have repeats : repeated ["mul"] = [] := by decide
  have found : (backwards latency).violations .basic = [.badLatency "mul" (.int latency)] := by
    have tooSmall : ¬0 ≤ latency := not_le.mpr negative
    have none_ : repeated [] = [] := rfl
    simp [backwards, violations, repeats, none_, operationNames, typeViolations,
      Value.isWholeFrom, tooSmall]
  rw [check, Option.getD_some, found]
  rfl

/-- A rule is broken there. -/
theorem not_sound_backwards {latency : Int} (negative : latency < 0) :
    ¬(backwards latency).Sound .basic := by
  intro sound
  -- Its latency is the only one there is.
  obtain ⟨n, same, nonneg⟩ := sound.latencies _ (List.mem_singleton_self _)
  cases same
  exact absurd nonneg (not_le.mpr negative)

/-- A negative latency with too many digits is wrong, but the problem is not reported as
malformed. -/
theorem overlong_latency_not_reported :
    ¬(backwards (-Text.leastUnwritable)).Sound .basic ∧
      reported ((backwards (-Text.leastUnwritable)).check (some .basic)) =
        .error .unwritable := by
  have negative : -Text.leastUnwritable < 0 := by decide +kernel
  refine ⟨not_sound_backwards negative, ?_⟩
  -- The latency that is reported is too long for the message that reports it.
  rw [check_backwards negative, reported_error_eq, if_neg (by decide +kernel)]

/-- A type that is registered twice, once with a truth value for its latency, is told once, and a
distance that is none blames no registration. -/
example :
    let problem : Problem Value :=
      { name := "jumble"
        operatorTypes := [⟨"mul", .int 1, none⟩, ⟨"mul", .bool true, some (.int 0)⟩]
        operations := [⟨"x", "add", none⟩]
        dependences := [⟨"x", "ghost", .text "2"⟩]
        interval := none }
    (Fault.malformed problem.name (problem.violations .basic)).entities =
      ["mul", "x", "ghost"] := by
  decide

end Problem

end CycleSchedule
