import CycleSchedule.Proofs.Graph.OfProblem
import CycleSchedule.Proofs.Graph.Recurrence
import CycleSchedule.Scheduler.Shared
import Mathlib.Algebra.Order.Ring.Rat
import Mathlib.Data.Rat.Cast.Order

/-! Starting the operations in topological order, each once its results are there, gives the least
admissible starts, or shows that a pinned operation cannot be where it is. -/

namespace CycleSchedule

namespace Problem

variable {problem : Problem Int} {pinned : NameTable Int} {placed : List String}
  {starts : NameTable Int} {x : String → Rat} {node : String}

/-- Starts that are not negative, at which all results are there that are needed, and at which the
pinned operations are where they were pinned. -/
structure Admissible (problem : Problem Int) (pinned : NameTable Int) (x : String → Rat) :
    Prop where
  nonneg : ∀ name ∈ problem.operationNames, 0 ≤ x name
  ordered : ∀ dependence ∈ problem.dependences,
    x dependence.source + problem.latencyOf dependence.source ≤ x dependence.destination
  held : ∀ name slot, pinned.get? name = some slot → x name = slot

/-- The admissible starts that no others are before. -/
structure Least (problem : Problem Int) (pinned starts : NameTable Int) : Prop where
  names : ∀ name, name ∈ starts.names ↔ name ∈ problem.operationNames
  distinct : starts.names.Nodup
  admissible : problem.Admissible pinned fun name => starts.valueAt name
  least : ∀ x, problem.Admissible pinned x → ∀ name ∈ problem.operationNames,
    starts.valueAt name ≤ x name

/-- There is only one table of least starts, but for the order of its entries. -/
theorem Least.get?_eq {other : NameTable Int} (first : problem.Least pinned starts)
    (second : problem.Least pinned other) (name : String) : starts.get? name = other.get? name := by
  by_cases member : name ∈ problem.operationNames
  · -- Each of the two is not before the other.
    have le := first.least _ second.admissible name member
    have ge := second.least _ first.admissible name member
    have same : starts.valueAt name = other.valueAt name := by exact_mod_cast le_antisymm le ge
    rw [NameTable.get?_of_mem_names ((first.names name).mpr member),
      NameTable.get?_of_mem_names ((second.names name).mpr member), same]
  · -- A name of no operation is in neither table.
    rw [NameTable.get?_eq_none_iff.mpr fun found => member ((first.names name).mp found),
      NameTable.get?_eq_none_iff.mpr fun found => member ((second.names name).mp found)]

/-- Least starts stay so in another order of the entries. -/
theorem Least.of_get?_eq {other : NameTable Int} (least : problem.Least pinned starts)
    (same : ∀ name, other.get? name = starts.get? name) (distinct : other.names.Nodup) :
    problem.Least pinned other := by
  -- Everything that is said of the starts is said of what is found under the names.
  have value (name : String) : other.valueAt name = starts.valueAt name := by
    rw [NameTable.valueAt, same, NameTable.valueAt]
  refine ⟨fun name => ?_, distinct, ?_, ?_⟩
  · rw [← least.names, ← not_iff_not, ← NameTable.get?_eq_none_iff, same,
      NameTable.get?_eq_none_iff]
  · simpa only [value] using least.admissible
  · simpa only [value] using least.least

/-- Some operations have their least admissible starts. -/
structure Settled (problem : Problem Int) (pinned : NameTable Int) (placed : List String)
    (starts : NameTable Int) : Prop where
  names : ∀ name, name ∈ starts.names ↔ name ∈ placed
  distinct : starts.names.Nodup
  nonneg : ∀ name ∈ placed, 0 ≤ starts.valueAt name
  ordered : ∀ dependence ∈ problem.dependences, dependence.destination ∈ placed →
    dependence.source ∈ placed ∧ starts.valueAt dependence.source +
      problem.latencyOf dependence.source ≤ starts.valueAt dependence.destination
  held : ∀ name ∈ placed, ∀ slot, pinned.get? name = some slot → starts.valueAt name = slot
  least : ∀ x, problem.Admissible pinned x → ∀ name ∈ placed, starts.valueAt name ≤ x name

/-- Before any operation is started there is nothing to say. -/
theorem settled_nil : problem.Settled pinned [] [] :=
  ⟨fun _ => Iff.rfl, List.nodup_nil, by simp, by simp, by simp, by simp⟩

/-- The cycle at which all results that an operation needs are there. -/
def readyAt (problem : Problem Int) (starts : NameTable Int) (node : String) : Int :=
  ((problem.dependences.filter (·.destination = node)).map fun dependence =>
    starts.valueAt dependence.source + problem.latencyOf dependence.source).foldl max 0

/-- The latest of some cycles is at or after each of them. -/
private theorem le_foldl_max (cycles : List Int) : ∀ first,
    first ≤ cycles.foldl max first ∧ ∀ cycle ∈ cycles, cycle ≤ cycles.foldl max first := by
  -- By induction on the cycles, for every one to begin with.
  induction cycles with
  | nil => simp
  | cons cycle cycles ih =>
    intro first
    obtain ⟨start, rest⟩ := ih (max first cycle)
    rw [List.foldl_cons, List.forall_mem_cons]
    exact ⟨(le_max_left _ _).trans start, (le_max_right _ _).trans start, rest⟩

/-- The latest of some cycles is one of them. -/
private theorem foldl_max_mem (cycles : List Int) : ∀ first,
    cycles.foldl max first = first ∨ cycles.foldl max first ∈ cycles := by
  -- The greatest is either of the two that are compared, each time.
  induction cycles with
  | nil => simp
  | cons cycle cycles ih =>
    intro first
    rw [List.foldl_cons]
    rcases ih (max first cycle) with same | member
    · rw [same]
      rcases max_choice first cycle with left | right
      · exact Or.inl left
      · exact Or.inr (by simp [right])
    · exact Or.inr (List.mem_cons_of_mem _ member)

/-- No operation is ready before cycle 0. -/
theorem readyAt_nonneg : 0 ≤ problem.readyAt starts node := (le_foldl_max _ 0).1

/-- No needed result comes later. -/
theorem le_readyAt {dependence : Dependence Int} (member : dependence ∈ problem.dependences)
    (here : dependence.destination = node) :
    starts.valueAt dependence.source + problem.latencyOf dependence.source ≤
      problem.readyAt starts node :=
  (le_foldl_max _ 0).2 _ (List.mem_map.mpr
    ⟨dependence, List.mem_filter.mpr ⟨member, by simpa using here⟩, rfl⟩)

/-- An operation is ready by a cycle if no needed result comes later. -/
theorem readyAt_le_iff {cycle : Int} : problem.readyAt starts node ≤ cycle ↔
    0 ≤ cycle ∧ ∀ dependence ∈ problem.dependences, dependence.destination = node →
      starts.valueAt dependence.source + problem.latencyOf dependence.source ≤ cycle := by
  constructor
  · exact fun ready => ⟨readyAt_nonneg.trans ready, fun dependence member here =>
      (le_readyAt member here).trans ready⟩
  · -- It is ready in cycle zero, or when one of the results is there.
    rintro ⟨nonneg, results⟩
    rcases foldl_max_mem ((problem.dependences.filter (·.destination = node)).map fun dependence =>
      starts.valueAt dependence.source + problem.latencyOf dependence.source) 0 with zero | member
    · rwa [readyAt, zero]
    · obtain ⟨dependence, found, same⟩ := List.mem_map.mp member
      obtain ⟨known, here⟩ := List.mem_filter.mp found
      rw [readyAt, ← same]
      exact results dependence known (by simpa using here)

/-- Admissible starts are not before the results are there. -/
theorem Settled.readyAt_le (settled : problem.Settled pinned placed starts)
    (before : ∀ dependence ∈ problem.dependences, dependence.destination = node →
      dependence.source ∈ placed) (admissible : problem.Admissible pinned x)
    (known : node ∈ problem.operationNames) : problem.readyAt starts node ≤ x node := by
  rcases foldl_max_mem ((problem.dependences.filter (·.destination = node)).map fun dependence =>
    starts.valueAt dependence.source + problem.latencyOf dependence.source) 0 with zero | member
  · rw [readyAt, zero]
    exact_mod_cast admissible.nonneg node known
  · -- The latest result is that of some dependence, whose source is not started before its least.
    obtain ⟨dependence, found, same⟩ := List.mem_map.mp member
    obtain ⟨dependenceMember, here⟩ := List.mem_filter.mp found
    have into : dependence.destination = node := by simpa using here
    have step := admissible.ordered dependence dependenceMember
    have source := settled.least x admissible _ (before dependence dependenceMember into)
    rw [readyAt, ← same, ← into]
    push_cast
    linarith

/-- An operation can be started as soon as it is ready, or where it is pinned if that is later. -/
theorem Settled.put (settled : problem.Settled pinned placed starts) (new : node ∉ placed)
    (known : node ∈ problem.operationNames)
    (before : ∀ dependence ∈ problem.dependences, dependence.destination = node →
      dependence.source ∈ placed) {start : Int} (ready : problem.readyAt starts node ≤ start)
    (place : pinned.get? node = some start ∨
      pinned.get? node = none ∧ start = problem.readyAt starts node) :
    problem.Settled pinned (node :: placed) (starts.put node start) := by
  -- Only the new operation has another start than before.
  have own : NameTable.valueAt (starts.put node start) node = start :=
    NameTable.valueAt_of_get? NameTable.get?_put_self
  have old {name : String} (member : name ∈ placed) :
      NameTable.valueAt (starts.put node start) name = starts.valueAt name := by
    have different : node ≠ name := fun same => new (same.symm ▸ member)
    rw [NameTable.valueAt, NameTable.get?_put_of_ne different, NameTable.valueAt]
  refine ⟨fun name => ?_, NameTable.nodup_names_put settled.distinct, ?_, ?_, ?_, ?_⟩
  · rw [NameTable.mem_names_put, settled.names, List.mem_cons]
  · refine List.forall_mem_cons.mpr ⟨?_, fun name member => ?_⟩
    · rw [own]
      exact readyAt_nonneg.trans ready
    · rw [old member]
      exact settled.nonneg name member
  · intro dependence member inside
    -- A dependence leads to the new operation, or between two that have their starts already.
    rcases List.mem_cons.mp inside with here | earlier
    · have source := before dependence member here
      refine ⟨List.mem_cons_of_mem _ source, ?_⟩
      rw [old source, here, own]
      exact (le_readyAt member here).trans ready
    · obtain ⟨source, holds⟩ := settled.ordered dependence member earlier
      refine ⟨List.mem_cons_of_mem _ source, ?_⟩
      rw [old source, old earlier]
      exact holds
  · -- A pinned operation is placed where its pin says.
    refine List.forall_mem_cons.mpr ⟨fun slot isPinned => ?_, fun name member => ?_⟩
    · rw [own]
      rcases place with there | ⟨free, _⟩
      · exact Option.some.inj (there.symm.trans isPinned)
      · simp [free] at isPinned
    · rw [old member]
      exact settled.held name member
  · -- No admissible starts are earlier, neither by the pin nor by what comes before.
    intro x admissible
    refine List.forall_mem_cons.mpr ⟨?_, fun name member => ?_⟩
    · rw [own]
      rcases place with there | ⟨_, same⟩
      · exact (admissible.held node start there).ge
      · rw [same]
        exact settled.readyAt_le before admissible known
    · rw [old member]
      exact settled.least x admissible name member

/-- Where all distances are 0 no edge is left out of the graph of one iteration. -/
theorem graph_edges (single : ∀ dependence ∈ problem.dependences, dependence.distance = 0) :
    (problem.graph true).edges = problem.dependences :=
  List.filter_eq_self.mpr fun dependence member => by simp [single dependence member]

/-- Among the integers the latest cycle is the largest one. -/
private theorem foldl_later (cycles : List Int) (first : Int) :
    cycles.foldl Measure.later first = cycles.foldl max first := by
  rw [show (Measure.later : Int → Int → Int) = max from funext₂ later_int]

/-- The latest of the results that an operation needs is there when it is ready. -/
theorem Settled.latest (wellFormed : problem.WellFormed)
    (settled : problem.Settled pinned placed starts)
    (before : ∀ dependence ∈ problem.dependences, dependence.destination = node →
      dependence.source ∈ placed) :
    Shared.latest ((problem.dependences.filter (·.destination = node)).map fun dependence =>
      starts.valueAt dependence.source + problem.latencyOf dependence.source) =
        problem.readyAt starts node := by
  rw [readyAt]
  cases found : problem.dependences.filter (·.destination = node) with
  | nil => rfl
  | cons dependence others =>
    -- No result comes before cycle zero, so that starting from zero makes no difference.
    have member : dependence ∈ problem.dependences.filter (·.destination = node) := by simp [found]
    obtain ⟨known, here⟩ := List.mem_filter.mp member
    have source := settled.nonneg _ (before dependence known (by simpa using here))
    have latency := wellFormed.latencyOf_nonneg dependence.source
    rw [List.map_cons, Shared.latest, foldl_later, List.foldl_cons, max_eq_right (by omega)]

/-- The schedulers see the results that an operation needs. -/
theorem Settled.readyCycles (wellFormed : problem.WellFormed)
    (single : ∀ dependence ∈ problem.dependences, dependence.distance = 0)
    (settled : problem.Settled pinned placed starts)
    (before : ∀ dependence ∈ problem.dependences, dependence.destination = node →
      dependence.source ∈ placed) :
    (problem.graph true).readyCycles starts node =
      .ok ((problem.dependences.filter (·.destination = node)).map fun dependence =>
        starts.valueAt dependence.source + problem.latencyOf dependence.source) := by
  rw [Graph.readyCycles, Graph.predecessors, graph_edges single]
  -- The sources of all dependences have been started before.
  refine mapM_ok _ fun dependence member => ?_
  obtain ⟨found, here⟩ := List.mem_filter.mp member
  have source : dependence.source ∈ starts.names :=
    (settled.names _).mpr (before dependence found (by simpa using here))
  rw [startOf, NameTable.get?_of_mem_names source,
    Graph.measuredLatency_int, latency_graph true (wellFormed.endpoints dependence found).1]
  rfl

section PinnedStart

variable {slot ready : Int}

/-- An operation that is not pinned starts when it is ready. -/
theorem pinnedStart_of_free (free : pinned.get? node = none) :
    Shared.pinnedStart pinned node ready = .ok ready := by
  rw [Shared.pinnedStart, free]

/-- A pin before the operation is ready is refused. -/
theorem pinnedStart_of_early (isPinned : pinned.get? node = some slot) (early : slot < ready) :
    Shared.pinnedStart pinned node ready = .error (.pinnedTooEarly node slot (.whole ready)) := by
  rw [Shared.pinnedStart, isPinned]
  exact if_pos early

/-- An operation starts at its pin if it is ready by then. -/
theorem pinnedStart_of_le (isPinned : pinned.get? node = some slot) (late : ready ≤ slot) :
    Shared.pinnedStart pinned node ready = .ok slot := by
  rw [Shared.pinnedStart, isPinned]
  exact if_neg (not_lt.mpr late)

end PinnedStart

/-- Once all operations are started, their starts are the least ones. -/
theorem Settled.least_of_perm (settled : problem.Settled pinned placed starts)
    (all : ∀ name, name ∈ placed ↔ name ∈ problem.operationNames)
    (endpoints : ∀ dependence ∈ problem.dependences,
      dependence.destination ∈ problem.operationNames)
    (pins : ∀ name ∈ pinned.names, name ∈ problem.operationNames) :
    problem.Least pinned starts where
  names name := (settled.names name).trans (all name)
  distinct := settled.distinct
  admissible :=
    { -- Each is known of what is placed, which is all there is.
      nonneg name member := by exact_mod_cast settled.nonneg name ((all name).mpr member)
      ordered dependence member := by
        exact_mod_cast (settled.ordered dependence member
          ((all _).mpr (endpoints dependence member))).2
      held name slot isPinned := by
        exact_mod_cast settled.held name
          ((all name).mpr (pins name (NameTable.mem_names_of_get? isPinned))) slot isPinned }
  least x admissible name member := settled.least x admissible name ((all name).mpr member)

section Propagation

variable (wellFormed : problem.WellFormed)
  (single : ∀ dependence ∈ problem.dependences, dependence.distance = 0)

include wellFormed single

/-- Starting operations in order settles them, or a pinned one stands in the way of its results. -/
theorem Settled.startInOrder : ∀ (nodes placed : List String) (starts : NameTable Int),
    Graph.Follows problem.dependences placed nodes →
    (∀ node ∈ nodes, node ∈ problem.operationNames) → problem.Settled pinned placed starts →
    (∃ final, Shared.startInOrder (problem.graph true) pinned starts nodes = .ok final ∧
      problem.Settled pinned (nodes.reverse ++ placed) final) ∨
    (∃ name slot ready, pinned.get? name = some slot ∧
      Shared.startInOrder (problem.graph true) pinned starts nodes =
        .error (.pinnedTooEarly name slot ready)) ∧ ∀ x, ¬problem.Admissible pinned x := by
  intro nodes
  induction nodes with
  | nil => exact fun placed starts _ _ settled => Or.inl ⟨starts, rfl, settled⟩
  | cons node nodes ih =>
    intro placed starts follows inside settled
    obtain ⟨new, before, later⟩ := follows
    have known := inside node (by simp)
    have before' : ∀ dependence ∈ problem.dependences, dependence.destination = node →
        dependence.source ∈ placed := before
    have step {start : Int} (ready : problem.readyAt starts node ≤ start)
        (place : pinned.get? node = some start ∨
          pinned.get? node = none ∧ start = problem.readyAt starts node) :=
      ih (node :: placed) (starts.put node start) later
        (fun other member => inside other (List.mem_cons_of_mem _ member))
        (settled.put new known before' ready place)
    simp only [List.reverse_cons, List.append_assoc, List.singleton_append]
    unfold Shared.startInOrder
    rw [settled.readyCycles wellFormed single before', ok_bind,
      settled.latest wellFormed before']
    cases isPinned : pinned.get? node with
    | none =>
      -- An operation that is free starts as soon as it is ready.
      rw [pinnedStart_of_free isPinned, ok_bind]
      exact step le_rfl (Or.inr ⟨isPinned, rfl⟩)
    | some slot =>
      rcases lt_or_ge slot (problem.readyAt starts node) with early | late
      · rw [pinnedStart_of_early isPinned early]
        refine Or.inr ⟨⟨node, slot, _, isPinned, rfl⟩, fun x admissible => ?_⟩
        -- Admissible starts are neither before the results nor away from the pins.
        have low := settled.readyAt_le before' admissible known
        rw [admissible.held node slot isPinned] at low
        exact absurd (by exact_mod_cast low) (not_le.mpr early)
      · -- The results are there by the time it is pinned to.
        rw [pinnedStart_of_le isPinned late, ok_bind]
        exact step late (Or.inl isPinned)

/-- With nothing pinned, starting operations as soon as possible comes to the same. -/
theorem Settled.outcome_startInOrder : ∀ (nodes placed : List String) (starts : NameTable Int),
    Graph.Follows problem.dependences placed nodes →
    (∀ node ∈ nodes, node ∈ problem.operationNames) → problem.Settled [] placed starts →
    (Asap.startInOrder (problem.graph true) starts nodes).outcome =
      Shared.startInOrder (problem.graph true) [] starts nodes := by
  intro nodes
  -- Both schedulers make the same step, as long as what they have placed is settled.
  induction nodes with
  | nil => exact fun _ _ _ _ _ => rfl
  | cons node nodes ih =>
    -- The node starts when the last of its predecessors is done, for either scheduler.
    intro placed starts follows inside settled
    obtain ⟨new, before, later⟩ := follows
    have before' : ∀ dependence ∈ problem.dependences, dependence.destination = node →
        dependence.source ∈ placed := before
    have rest := ih (node :: placed) (starts.put node (problem.readyAt starts node)) later
      (fun other member => inside other (List.mem_cons_of_mem _ member))
      (settled.put new (inside node (by simp)) before' le_rfl (Or.inr ⟨rfl, rfl⟩))
    unfold Asap.startInOrder Shared.startInOrder
    simp only [Narrated.outcome_bind, Narrated.outcome_lift, Narrated.outcome_tell, ok_bind]
    rw [settled.readyCycles wellFormed single before', ok_bind, ok_bind,
      settled.latest wellFormed before', foldl_later]
    exact rest

/-- The least schedule has the least admissible starts, and fails only if there are none. -/
theorem WellFormed.leastSchedule {order : List String}
    (all : order.Perm problem.operationNames)
    (follows : Graph.Follows problem.dependences [] order)
    (pins : ∀ name ∈ pinned.names, name ∈ problem.operationNames) :
    (∃ starts, Shared.leastSchedule (problem.graph true) order pinned = .ok starts ∧
      problem.Least pinned starts) ∨
    (∃ name slot ready, pinned.get? name = some slot ∧
      Shared.leastSchedule (problem.graph true) order pinned =
        .error (.pinnedTooEarly name slot ready)) ∧ ∀ x, ¬problem.Admissible pinned x := by
  -- Nothing is settled to begin with, and everything is once all operations are placed.
  rcases settled_nil.startInOrder wellFormed single order [] [] follows
    (fun node member => all.mem_iff.mp member) with ⟨final, found, settled⟩ | failed
  · refine Or.inl ⟨final, found, settled.least_of_perm (fun name => ?_)
      (fun dependence member => (wellFormed.endpoints dependence member).2) pins⟩
    rw [List.append_nil, List.mem_reverse, all.mem_iff]
  · exact Or.inr failed

/-- Starting operations as soon as possible never fails, and gives the least starts. -/
theorem WellFormed.asSoonAsPossible {order : List String}
    (all : order.Perm problem.operationNames)
    (follows : Graph.Follows problem.dependences [] order) :
    ∃ starts, (Asap.startInOrder (problem.graph true) [] order).outcome = .ok starts ∧
      problem.Least [] starts := by
  rw [settled_nil.outcome_startInOrder wellFormed single order [] [] follows
    fun node member => all.mem_iff.mp member]
  -- Without pins there is none that could stand in the way.
  have none_ : ∀ name ∈ NameTable.names ([] : NameTable Int), name ∈ problem.operationNames := by
    simp [NameTable.names]
  rcases wellFormed.leastSchedule single all follows none_ with
    found | ⟨⟨_, _, _, isPinned, _⟩, _⟩
  · exact found
  · simp at isPinned

end Propagation

end Problem

end CycleSchedule
