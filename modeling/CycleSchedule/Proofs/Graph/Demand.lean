import CycleSchedule.Proofs.Graph.Recurrence
import Mathlib.Order.Bounds.Basic

/-! What cycles ask of an interval: levels keep rising just when some cycle asks for more than the
interval gives, and halving a range of intervals finds the least one for which none does. -/

namespace CycleSchedule.Graph

variable {graph : Graph Int} {interval : Int} {edge : Dependence Int}

/-- How far an edge asks the level of its destination to be above that of its source. -/
def demand (graph : Graph Int) (interval : Int) (edge : Dependence Int) : Int :=
  graph.latency edge.source - interval * edge.distance

/-- Some cycle asks for more than an interval gives. -/
def Exceeds (graph : Graph Int) (interval : Int) : Prop :=
  ∃ cycle, Cycle graph.edges cycle ∧ 0 < weight (graph.demand interval) cycle

/-- At an interval that no cycle exceeds, every cycle has a weight of at most 0. -/
theorem weight_le_zero_of_not_exceeds (enough : ¬graph.Exceeds interval)
    (cycle : List (Dependence Int)) (isCycle : Cycle graph.edges cycle) :
    weight (graph.demand interval) cycle ≤ 0 :=
  not_lt.mp fun positive => enough ⟨cycle, isCycle, positive⟩

/-- A walk asks for the latencies of the nodes that it leaves, less the interval as many times as
its distances say. -/
theorem weight_demand (walk : List (Dependence Int)) :
    weight (graph.demand interval) walk = weight (fun edge => graph.latency edge.source) walk -
      interval * weight (fun edge => edge.distance) walk := by
  -- The demand of an edge is a difference, so that of a walk is the difference of two sums.
  have together := weight_sub_mul 1 interval (fun edge => graph.latency edge.source)
    (fun edge => edge.distance) walk
  simp only [one_mul] at together
  exact together

variable {passed : List (Dependence Int)} {before middle after : NameTable Int × Bool}

/-- All levels are weights of walks. -/
def Attained (graph : Graph Int) (interval : Int) (levels : NameTable Int) : Prop :=
  ∀ node, Arrives graph.edges (graph.demand interval) node (levels.valueAt node)

/-- What passing over edges does to levels, and to the sign that some level has been raised. -/
structure Raised (graph : Graph Int) (interval : Int) (passed : List (Dependence Int))
    (before after : NameTable Int × Bool) : Prop where
  grows : ∀ node, before.1.valueAt node ≤ after.1.valueAt node
  met : ∀ edge ∈ passed, before.1.valueAt edge.source + graph.demand interval edge ≤
    after.1.valueAt edge.destination
  still : after.2 = false → after = before
  moved : after.2 = true → before.2 = true ∨
    ∃ node, before.1.valueAt node < after.1.valueAt node
  attained : graph.Attained interval before.1 → graph.Attained interval after.1

/-- Without edges nothing is raised. -/
theorem raised_nil : graph.Raised interval [] before before :=
  ⟨fun _ => le_rfl, by simp, fun _ => rfl, Or.inl, id⟩

/-- An edge raises the level of its destination where that is below what the edge asks for. -/
theorem raise_eq (levels : NameTable Int) (changed : Bool) (edge : Dependence Int) :
    graph.raise interval (levels, changed) edge =
      if levels.valueAt edge.destination <
          levels.valueAt edge.source + graph.demand interval edge then
        (levels.put edge.destination
          (levels.valueAt edge.source + graph.demand interval edge), true)
      else (levels, changed) := by
  -- What is asked of the destination is the level of the source and the demand together.
  have asked : levels.valueAt edge.source + graph.demand interval edge =
      graph.asked interval (levelOf levels edge.source) edge := by
    show _ = levels.valueAt edge.source + graph.latency edge.source - interval * edge.distance
    rw [demand, add_sub_assoc]
  rw [asked]
  rfl

/-- Passing over an edge raises one level to what the edge asks for, or none. -/
theorem raised_raise (member : edge ∈ graph.edges) :
    graph.Raised interval [edge] before (graph.raise interval before edge) := by
  obtain ⟨levels, changed⟩ := before
  rw [raise_eq]
  split
  · rename_i low
    refine ⟨fun node => ?_, ?_, by simp, fun _ => Or.inr ⟨edge.destination, ?_⟩,
      fun attained node => ?_⟩
    · -- Only the level of the destination changes, and it was lower before.
      rw [NameTable.valueAt_put]
      split
      · rename_i same
        exact same ▸ low.le
      · exact le_rfl
    · simp [NameTable.valueAt_put]
    · simpa [NameTable.valueAt_put] using low
    · -- The new level is the weight of a walk that goes on over the edge.
      rw [NameTable.valueAt_put]
      split
      · rename_i same
        exact same ▸ (attained edge.source).step member
      · exact attained node
  · -- The level is no lower than what the edge asks for, and nothing changes.
    rename_i high
    exact ⟨fun _ => le_rfl, by simpa using high, fun _ => rfl, Or.inl, id⟩

/-- Passing over some edges and then over others is passing over all of them. -/
theorem Raised.trans {more : List (Dependence Int)}
    (first : graph.Raised interval passed before middle)
    (second : graph.Raised interval more middle after) :
    graph.Raised interval (passed ++ more) before after where
  grows node := (first.grows node).trans (second.grows node)
  met edge member := by
    -- What the earlier edges asked for is not taken back by the later ones.
    rcases List.mem_append.mp member with early | late
    · exact (first.met edge early).trans (second.grows _)
    · exact (add_le_add_left (first.grows _) _).trans (second.met edge late)
  still quiet := by
    -- If the later edges changed nothing, the earlier ones have to answer for the mark.
    have same := second.still quiet
    rw [same] at quiet ⊢
    exact first.still quiet
  moved raised := by
    rcases second.moved raised with already | ⟨node, higher⟩
    · exact (first.moved already).imp_right fun ⟨node, higher⟩ =>
        ⟨node, higher.trans_le (second.grows node)⟩
    · exact Or.inr ⟨node, (first.grows node).trans_lt higher⟩
  attained start := second.attained (first.attained start)

/-- What passing over the edges of a list does. -/
theorem raised_foldl : ∀ passed : List (Dependence Int), (∀ edge ∈ passed, edge ∈ graph.edges) →
    ∀ before, graph.Raised interval passed before (passed.foldl (graph.raise interval) before) := by
  intro passed
  -- By induction on the edges, for any levels that they may start from.
  induction passed with
  | nil => exact fun _ _ => raised_nil
  | cons edge passed ih =>
    intro within before
    exact (raised_raise (within edge (by simp))).trans
      (ih (fun other member => within other (List.mem_cons_of_mem _ member)) _)

variable {levels : NameTable Int} {count : Nat}

/-- No walk of so many edges at most weighs more than the level of the node that it leads to. -/
def Covers (graph : Graph Int) (interval : Int) (count : Nat) (levels : NameTable Int) : Prop :=
  ∀ start walk node, (∀ edge ∈ walk, edge ∈ graph.edges) → Leads start walk node →
    walk.length ≤ count → weight (graph.demand interval) walk ≤ levels.valueAt node

/-- One more round covers walks with one more edge. -/
theorem Covers.step (covers : graph.Covers interval count before.1)
    (raised : graph.Raised interval graph.edges before after) :
    graph.Covers interval (count + 1) after.1 := by
  intro start walk node within leads short
  rcases List.eq_nil_or_concat' walk with rfl | ⟨init, last, rfl⟩
  · exact (covers start [] node within leads (Nat.zero_le _)).trans (raised.grows node)
  · -- The walk without its last edge is covered, and the round passes over that edge.
    obtain ⟨node, toNode, rfl, rfl⟩ := leads_append.mp leads
    obtain ⟨early, late⟩ := List.forall_mem_append.mp within
    have covered := covers start init last.source early toNode (by simpa using short)
    have met := raised.met last (late last (by simp))
    rw [weight_append, weight_cons, weight_nil, add_zero]
    exact (add_le_add_left covered _).trans met

/-- The first of several rounds raises levels, and if it does, the others go on from there. -/
theorem exists_round (graph : Graph Int) (interval : Int) (rounds : Nat) (levels : NameTable Int) :
    ∃ after, graph.Raised interval graph.edges (levels, false) after ∧
      graph.keepsRising interval (rounds + 1) levels =
        (after.2 && graph.keepsRising interval rounds after.1) :=
  ⟨_, raised_foldl graph.edges (fun _ member => member) (levels, false), rfl⟩

/-- A walk that comes to no node twice has fewer edges than there are nodes. -/
theorem Sound.length_lt (sound : graph.Sound) {start finish : String}
    {walk : List (Dependence Int)} (within : ∀ edge ∈ walk, edge ∈ graph.edges)
    (leads : Leads start walk finish) (some_ : walk ≠ [])
    (distinct : (walk.map (·.source) ++ [finish]).Nodup) : walk.length < graph.nodes.length := by
  -- The nodes that the walk comes to are some of all nodes, each of them once.
  have nodes : walk.map (·.source) ++ [finish] ⊆ graph.nodes := by
    refine List.append_subset.mpr ⟨fun node member => ?_, ?_⟩
    · obtain ⟨edge, edgeMember, rfl⟩ := List.mem_map.mp member
      exact sound.source edge (within edge edgeMember)
    · obtain ⟨init, last, rfl⟩ := (List.eq_nil_or_concat' walk).resolve_left some_
      obtain ⟨_, _, rfl, rfl⟩ := leads_append.mp leads
      simpa using sound.destination last (within last (by simp))
  have counted := (List.subperm_of_subset distinct nodes).length_le
  rwa [List.length_append, List.length_map, List.length_singleton] at counted

/-- Once all walks are covered that come to no node twice, a round raises nothing. -/
theorem Sound.quiet_of_covers (sound : graph.Sound) (enough : ¬graph.Exceeds interval)
    (many : graph.nodes.length ≤ count + 1) (covers : graph.Covers interval count levels)
    (attained : graph.Attained interval levels)
    (raised : graph.Raised interval graph.edges (levels, false) after) : after.2 = false := by
  by_contra changed
  obtain ⟨node, higher⟩ := (raised.moved (by simpa using changed)).resolve_left (by simp)
  -- The level that has been raised is no higher than a walk that was covered before.
  obtain ⟨start, walk, within, leads, same⟩ := raised.attained attained node
  obtain ⟨simple, inside, simpleLeads, distinct, heavier⟩ :=
    leads.exists_simple (weight_le_zero_of_not_exceeds enough) within
  have short : simple.length ≤ count := by
    by_cases none_ : simple = []
    · simp [none_]
    · have bound := sound.length_lt inside simpleLeads none_ distinct
      omega
  have covered := covers start simple node inside simpleLeads short
  exact absurd (heavier.trans covered) (not_le.mpr (same ▸ higher))

/-- Where no cycle asks for too much, levels come to rest within as many rounds as nodes. -/
theorem Sound.keepsRising_eq_false (sound : graph.Sound) (enough : ¬graph.Exceeds interval) :
    ∀ rounds count levels, 0 < rounds → graph.nodes.length ≤ count + rounds →
      graph.Covers interval count levels → graph.Attained interval levels →
        graph.keepsRising interval rounds levels = false := by
  intro rounds
  -- The induction is on the rounds that are left; each covers walks with one more edge.
  induction rounds with
  | zero => exact fun _ _ positive => absurd positive (lt_irrefl 0)
  | succ rounds ih =>
    intro count levels _ long covers attained
    obtain ⟨after, raised, isRising⟩ := graph.exists_round interval rounds levels
    rcases Nat.eq_zero_or_pos rounds with rfl | more
    · rw [isRising, sound.quiet_of_covers enough long covers attained raised, Bool.false_and]
    · rw [isRising, ih (count + 1) after.1 more (by omega) (covers.step raised)
        (raised.attained attained), Bool.and_false]

/-- Where levels come to rest, no cycle asks for too much. -/
theorem not_exceeds_of_keepsRising : ∀ rounds levels,
    graph.keepsRising interval rounds levels = false → ¬graph.Exceeds interval := by
  intro rounds
  induction rounds with
  | zero => exact fun _ rest => by simp [keepsRising] at rest
  | succ rounds ih =>
    intro levels rest
    obtain ⟨after, raised, isRising⟩ := graph.exists_round interval rounds levels
    rw [isRising] at rest
    -- While levels rise, the next round is asked.
    cases changed : after.2 with
    | true => exact ih after.1 (by simpa [changed] using rest)
    | false =>
      -- A round without changes shows that the levels meet all demands.
      rintro ⟨cycle, isCycle, positive⟩
      have same := raised.still changed
      refine absurd (isCycle.weight_nonpos (fun node => levels.valueAt node) fun edge member => ?_)
        (not_le.mpr positive)
      have met := raised.met edge member
      rw [same] at met
      exact_mod_cast met

/-- The search for a positive cycle finds one just when there is one. -/
theorem Sound.hasPositiveCycle_iff (sound : graph.Sound) :
    graph.hasPositiveCycle interval = true ↔ graph.Exceeds interval := by
  constructor
  · intro found
    obtain ⟨some_, rising⟩ : graph.edges ≠ [] ∧ graph.keepsRising interval graph.nodes.length
        (.ofPairs (graph.nodes.map fun node => (node, Measure.ofInt 0))) = true := by
      simpa [hasPositiveCycle] using found
    by_contra enough
    -- At first all levels are zero, which is the weight of walks without edges.
    have zero (node : String) : NameTable.valueAt
        (.ofPairs (graph.nodes.map fun node => (node, Measure.ofInt 0))) node = 0 := by
      rw [NameTable.ofPairs_of_nodup (by simpa [Function.comp_def] using sound.distinct),
        NameTable.valueAt, NameTable.get?_map_pair]
      split <;> rfl
    obtain ⟨edge, edges, same⟩ := List.exists_cons_of_ne_nil some_
    have nodes := List.length_pos_of_mem (sound.source edge (same ▸ List.mem_cons_self))
    have settled := sound.keepsRising_eq_false enough graph.nodes.length 0 _ nodes (by omega)
      (fun start walk node _ _ short => by
        rw [zero, List.length_eq_zero_iff.mp (Nat.le_zero.mp short), weight_nil])
      (fun node => zero node ▸ arrives_zero)
    rw [settled] at rising
    exact Bool.false_ne_true rising
  · rintro ⟨cycle, isCycle, positive⟩
    -- A cycle has edges, and levels that came to rest would show that there is none.
    obtain ⟨edge, member⟩ := List.exists_mem_of_ne_nil _ isCycle.nonempty
    have some_ : graph.edges ≠ [] := List.ne_nil_of_mem (isCycle.within edge member)
    simp only [hasPositiveCycle, List.isEmpty_eq_false_iff.mpr some_, Bool.not_false, Bool.true_and]
    by_contra rest
    exact not_exceeds_of_keepsRising _ _ (Bool.not_eq_true _ ▸ rest) ⟨cycle, isCycle, positive⟩

/-- One round of the bisection: the middle is tested and one half is kept. -/
theorem leastInterval_succ (fuel : Nat) (lower upper : Int) :
    graph.leastInterval (fuel + 1) lower upper =
      if lower < upper then
        if graph.hasPositiveCycle ((lower + upper) / 2) then
          graph.leastInterval fuel ((lower + upper) / 2 + 1) upper
        else graph.leastInterval fuel lower ((lower + upper) / 2)
      else lower := rfl

section Distances

variable (sound : graph.Sound) (distances : ∀ edge ∈ graph.edges, 0 ≤ edge.distance)

include distances

/-- What a longer interval does not give, a shorter one does not give either. -/
theorem Exceeds.mono {shorter : Int} (exceeds : graph.Exceeds interval)
    (le : shorter ≤ interval) : graph.Exceeds shorter := by
  obtain ⟨cycle, isCycle, positive⟩ := exceeds
  refine ⟨cycle, isCycle, positive.trans_le (List.sum_le_sum fun edge member => ?_)⟩
  -- No distance is negative, so each edge asks for as much at least.
  have distance := distances edge (isCycle.within edge member)
  have less := mul_le_mul_of_nonneg_right le distance
  simp only [demand]
  omega

/-- A cycle that asks for too much of an interval as long as itself has no distance, so that it asks
for too much of every interval. -/
theorem exceeds_of_short {cycle : List (Dependence Int)} (isCycle : Cycle graph.edges cycle)
    (nonneg : 0 ≤ interval)
    (short : weight (fun edge => graph.latency edge.source) cycle ≤ interval)
    (positive : 0 < weight (graph.demand interval) cycle) (other : Int) :
    graph.Exceeds other := by
  have distance : 0 ≤ weight (fun edge => edge.distance) cycle :=
    List.sum_nonneg fun size member => by
      obtain ⟨edge, edgeMember, rfl⟩ := List.mem_map.mp member
      exact distances edge (isCycle.within edge edgeMember)
  rw [weight_demand] at positive
  refine ⟨cycle, isCycle, ?_⟩
  rw [weight_demand]
  rcases distance.eq_or_lt with none_ | some_
  · simpa [← none_] using positive
  · -- With a distance the interval counts once at least, and that is enough for the cycle.
    have once : weight (fun edge => graph.latency edge.source) cycle ≤
        interval * weight (fun edge => edge.distance) cycle :=
      short.trans (le_mul_of_one_le_right nonneg some_)
    omega

include sound

/-- Halving a range, whose end gives enough, finds the least interval in it that does. -/
theorem isLeast_leastInterval : ∀ (fuel : Nat) (lower upper : Int), lower ≤ upper →
    upper ≤ lower + fuel → ¬graph.Exceeds upper →
      IsLeast {interval | lower ≤ interval ∧ ¬graph.Exceeds interval}
        (graph.leastInterval fuel lower upper) := by
  intro fuel
  -- The induction is on the fuel; either half of a range is shorter than the range.
  induction fuel with
  | zero =>
    intro lower upper ordered short enough
    have same : lower = upper := by omega
    exact ⟨⟨le_rfl, same ▸ enough⟩, fun _ other => other.1⟩
  | succ fuel ih =>
    intro lower upper ordered short enough
    rw [leastInterval_succ]
    split
    · rename_i below
      by_cases exceeds : graph.Exceeds ((lower + upper) / 2)
      · -- The middle and all that is below it do not give enough.
        obtain ⟨⟨above, fine⟩, least⟩ :=
          ih ((lower + upper) / 2 + 1) upper (by omega) (by omega) enough
        rw [if_pos (sound.hasPositiveCycle_iff.mpr exceeds)]
        refine ⟨⟨(show lower ≤ (lower + upper) / 2 + 1 by omega).trans above, fine⟩,
          fun other ⟨_, otherFine⟩ => least ⟨?_, otherFine⟩⟩
        by_contra low
        exact otherFine (exceeds.mono distances (by omega))
      · rw [if_neg (mt sound.hasPositiveCycle_iff.mp exceeds)]
        exact ih lower ((lower + upper) / 2) (by omega) (by omega) exceeds
    · rename_i range
      have same : lower = upper := le_antisymm ordered (not_lt.mp range)
      exact ⟨⟨le_rfl, same ▸ enough⟩, fun _ other => other.1⟩

/-- Where no cycle takes longer than all operations, the least interval is found, or no interval
gives enough. -/
theorem minimumInterval_cases (short : ∀ cycle, Cycle graph.edges cycle →
      weight (fun edge => graph.latency edge.source) cycle ≤ graph.totalLatency) :
    (∃ least, graph.minimumInterval = some least ∧
        IsLeast {interval | 1 ≤ interval ∧ ¬graph.Exceeds interval} least) ∨
      graph.minimumInterval = none ∧ ∀ interval, graph.Exceeds interval := by
  -- The range to be halved ends with all latencies together.
  obtain ⟨upper, searched, positive, enough⟩ : ∃ upper : Int,
      (graph.minimumInterval = if graph.hasPositiveCycle upper then none
        else some (graph.leastInterval upper.toNat 1 upper)) ∧
      1 ≤ upper ∧ graph.totalLatency ≤ upper :=
    ⟨Measure.later 1 graph.totalLatency, rfl, by rw [later_int]; exact le_max_left _ _,
      by rw [later_int]; exact le_max_right _ _⟩
  -- If the longest interval is too short, every other one is.
  by_cases exceeds : graph.Exceeds upper
  · right
    rw [searched, if_pos (sound.hasPositiveCycle_iff.mpr exceeds)]
    obtain ⟨cycle, isCycle, asked⟩ := exceeds
    exact ⟨rfl, exceeds_of_short distances isCycle (zero_le_one.trans positive)
      ((short cycle isCycle).trans enough) asked⟩
  · left
    rw [searched, if_neg (mt sound.hasPositiveCycle_iff.mp exceeds)]
    exact ⟨_, rfl, isLeast_leastInterval sound distances _ 1 upper positive (by omega) exceeds⟩

end Distances

end CycleSchedule.Graph
