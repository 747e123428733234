import CycleSchedule.Proofs.Scheduler.Solution
import CycleSchedule.Scheduler.Choice

/-! Problems without distances and limits: both schedulers find the least starts, or name the same
cycle. -/

namespace CycleSchedule

namespace Problem

variable {problem : Problem Int} {pinned starts : NameTable Int} {last : String}

/-- Outside of the cyclic variant every dependence is within one iteration. -/
theorem Fits.single {variant : Variant} (fits : problem.Fits variant)
    (acyclic : variant ≠ .cyclic) :
    ∀ dependence ∈ problem.dependences, dependence.distance = 0 :=
  fun dependence member => (fits dependence member).resolve_right acyclic

/-- The order of the operations is that of the graph within one iteration. -/
theorem WellFormed.topologicalOrder_graph (wellFormed : problem.WellFormed) :
    (problem.graph true).topologicalOrder = problem.topologicalOrder := by
  rw [Problem.topologicalOrder, wellFormed.ofProblem, ok_bind]

section Sorted

variable (wellFormed : problem.WellFormed)
  (single : ∀ dependence ∈ problem.dependences, dependence.distance = 0)

include wellFormed single

/-- The operations can be sorted, or their dependences form a cycle. -/
theorem WellFormed.topologicalOrder :
    (∃ order, problem.topologicalOrder = .ok order ∧ order.Perm problem.operationNames ∧
      Graph.Follows problem.dependences [] order) ∨
    (∃ cycle, problem.topologicalOrder = .error (.cyclicDependence cycle)) ∧
      HasCycle problem.dependences := by
  -- Without distances the edges of the graph are all the dependences.
  have sorted := (wellFormed.sound_graph true).topologicalOrder
  rw [graph_edges single, wellFormed.topologicalOrder_graph] at sorted
  exact sorted.imp_right fun ⟨cycle, isCycle, failed⟩ => ⟨⟨_, failed⟩, cycle, isCycle⟩

/-- Without a cycle the operations can be sorted. -/
theorem WellFormed.exists_order (acyclic : ¬HasCycle problem.dependences) :
    ∃ order, problem.topologicalOrder = .ok order ∧ order.Perm problem.operationNames ∧
      Graph.Follows problem.dependences [] order :=
  (wellFormed.topologicalOrder single).resolve_right fun failed => acyclic failed.2

/-- Where the operations are sorted, minimising the start of the last one first succeeds. -/
theorem WellFormed.exists_lastFirst (minimizeSum : Bool) {order : List String}
    (all : order.Perm problem.operationNames)
    (follows : Graph.Follows problem.dependences [] order) (known : last ∈ problem.operationNames) :
    ∃ program solution effort, problem.precedenceProgram = .ok program ∧
      problem.Formulates [] program ∧
      (problem.solveForLast (some last) minimizeSum program).outcome = .ok (solution, effort) ∧
      problem.decodeStarts solution.values = .ok (solution.startsOf problem.operationNames) ∧
      problem.LastFirst problem.startUnknowns (fun x =>
        problem.Admissible [] fun name => x (startVariable name)) last minimizeSum solution := by
  obtain ⟨program, built, formulates⟩ := wellFormed.precedenceProgram
  -- Propagation shows that the program is feasible, so that it has a solution.
  obtain ⟨solution, effort, solved, lastFirst⟩ :=
    formulates.outcome_solveForLast minimizeSum wellFormed known (by
      obtain ⟨starts, _, least⟩ := wellFormed.asSoonAsPossible single all follows
      exact ⟨_, least.admissible⟩)
  exact ⟨program, solution, effort, built, formulates, solved,
    lastFirst.decodeStarts_ok wellFormed fun _ => mem_startUnknowns.mpr, lastFirst⟩

end Sorted

/-- The operation that starts as early as possible is a known one, unless there is none at all. -/
def HasLast (problem : Problem Int) : Option String → Prop
  | none => problem.operations = []
  | some name => name ∈ problem.operationNames

/-- The last operation is found, unless it is given and unknown. -/
theorem resolveLast_cases (problem : Problem Int) (last : Option String) :
    (∃ resolved, problem.resolveLast last = .ok resolved ∧ problem.HasLast resolved ∧
      ∀ name, last = some name → name ∈ problem.operationNames) ∨
    ∃ name, last = some name ∧ name ∉ problem.operationNames ∧
      problem.resolveLast last = .error (.unknownLast name problem.name) := by
  cases last with
  | some name =>
    by_cases known : name ∈ problem.operationNames
    · exact Or.inl ⟨some name, if_pos (operation?_isSome.mpr known), known, by simp [known]⟩
    · exact Or.inr ⟨name, rfl, known, if_neg fun found => known (operation?_isSome.mp found)⟩
  | none =>
    -- If none is given, the last one in the problem is taken.
    refine Or.inl ?_
    cases ending : problem.operations.getLast? with
    | none =>
      exact ⟨none, by rw [resolveLast, ending]; rfl, List.getLast?_eq_none_iff.mp ending, by simp⟩
    | some operation =>
      exact ⟨some operation.name, by rw [resolveLast, ending]; rfl,
        mem_operationNames (List.mem_of_getLast? ending), by simp⟩

/-- A known last operation is found. -/
theorem resolveLast_ok {last : Option String}
    (known : ∀ name, last = some name → name ∈ problem.operationNames) :
    ∃ resolved, problem.resolveLast last = .ok resolved ∧ problem.HasLast resolved := by
  -- A name that is not registered is the only way for the choice to fail.
  rcases resolveLast_cases problem last with ⟨resolved, found, hasLast, _⟩ |
    ⟨name, given, unknown, _⟩
  · exact ⟨resolved, found, hasLast⟩
  · exact absurd (known name given) unknown

/-- Least starts respect the dependences. -/
theorem Least.respects (least : problem.Least pinned starts)
    (names : starts.names = problem.operationNames) : problem.Respects starts 0 where
  names := names
  nonneg name member := by exact_mod_cast least.admissible.nonneg name member
  ordered dependence member := by
    -- With an interval of zero the distances do not matter.
    have ordered := least.admissible.ordered dependence member
    rw [zero_mul, add_zero]
    exact_mod_cast ordered

/-- Starts that respect the dependences are admissible, as long as nothing is pinned. -/
theorem Respects.admissible (respects : problem.Respects starts 0) :
    problem.Admissible [] fun name => starts.valueAt name where
  nonneg name known := by exact_mod_cast respects.nonneg name known
  ordered dependence member := by
    have ordered := respects.ordered dependence member
    -- There is a single iteration, so no start is put off.
    rw [zero_mul, add_zero] at ordered
    exact_mod_cast ordered
  held name slot isPinned := by simp at isPinned

/-- What passes the check without distances gives admissible starts. -/
theorem WellFormed.admissible_of_checkSchedule (wellFormed : problem.WellFormed)
    {given : NameTable (Option Int)} {recorded : Option Int}
    (passed : problem.checkSchedule given recorded .basic = .ok ()) :
    ∃ starts, problem.Gives given starts ∧
      problem.Admissible [] fun name => starts.valueAt name := by
  obtain ⟨starts, interval, gives, usable, respects, _⟩ :=
    wellFormed.respects_of_checkSchedule passed
  -- All iterations are taken for one, so that the interval is zero.
  obtain rfl : 0 = interval := by simpa [usableInterval] using usable
  exact ⟨starts, gives, respects.admissible⟩

/-- Under the same names in the same order there is only one table of least starts. -/
theorem Least.unique {other : NameTable Int} (first : problem.Least pinned starts)
    (second : problem.Least pinned other) (names : starts.names = other.names) : starts = other :=
  NameTable.ext_get? names first.distinct (first.get?_eq second)

/-- Least starts can be listed in the order of the operations. -/
theorem Least.inOrder (least : problem.Least pinned starts) (wellFormed : problem.WellFormed) :
    let table := problem.operationNames.map fun name => (name, starts.valueAt name)
    problem.Least pinned table ∧ NameTable.names table = problem.operationNames := by
  intro table
  have names : NameTable.names table = problem.operationNames := NameTable.names_map_pair _ _
  -- The starts stay what they are; only the order of the names is that of registration.
  exact ⟨least.of_get?_eq (NameTable.get?_map_valueAt least.names)
    (names ▸ wellFormed.operations), names⟩

/-- Minimising the start of any operation first and the sum of all then finds the least starts. -/
theorem Formulates.exists_leastStarts {program : LinearProgram}
    (formulates : problem.Formulates pinned program) (wellFormed : problem.WellFormed)
    (least : problem.Least pinned starts) (names : starts.names = problem.operationNames)
    (known : last ∈ problem.operationNames) :
    ∃ solution effort, (problem.solveForLast (some last) true program).outcome =
        .ok (solution, effort) ∧ effort.solves = 2 ∧
      problem.decodeStarts solution.values = .ok starts := by
  obtain ⟨solution, effort, solved, lastFirst⟩ :=
    formulates.outcome_solveForLast true wellFormed known ⟨_, least.admissible⟩
  have found := Solution.names_startsOf solution problem.operationNames
  -- The starts of the solution are least as well, whichever operation was the last one.
  have again : problem.Least pinned (solution.startsOf problem.operationNames) :=
    least.of_get?_eq (lastFirst.get?_startsOf least) (found.symm ▸ wellFormed.operations)
  refine ⟨solution, effort, solved, solves_of_solveForLast solved, ?_⟩
  rw [lastFirst.decodeStarts_ok wellFormed fun _ => mem_startUnknowns.mpr,
    again.unique least (found.trans names.symm)]

/-- Without operations there is nothing to start. -/
theorem Least.nil (least : problem.Least pinned starts) (nothing : problem.operations = []) :
    problem.Least pinned [] := by
  -- No name is found in either of the two tables.
  refine least.of_get?_eq (fun name => ?_) List.nodup_nil
  rw [NameTable.get?_nil, NameTable.get?_eq_none_iff.mpr]
  rw [least.names, operationNames, nothing]
  simp

/-- Starts that are whole numbers are measured already. -/
theorem measuredStarts_int (result : AlgorithmResult Int) :
    Scheduler.measuredStarts result = result := by
  obtain ⟨starts, interval, metadata⟩ := result
  exact congrArg (AlgorithmResult.mk · interval metadata) (List.map_id starts)

/-- A computation of such starts is not changed by measuring them. -/
theorem map_measuredStarts_int (narrated : Narrated (AlgorithmResult Int)) :
    Scheduler.measuredStarts <$> narrated = narrated := by
  obtain ⟨events, outcome⟩ := narrated
  show Narrated.andThen _ _ = _
  -- Reading the starts as measures changes nothing about integers.
  cases outcome with
  | error fault => rfl
  | ok result => simp [Narrated.andThen, measuredStarts_int, Narrated.done]

/-- Schedulers by linear programs differ by what they do for each variant only. -/
theorem run_simplex (problem : Problem Int) (variant : Variant) (last : Option String)
    (minimizeSum : Bool) :
    (Scheduler.simplex variant last minimizeSum).run problem =
      match variant with
      | .basic => Precedence.schedule problem last minimizeSum
      | .cyclic => Cyclic.schedule problem last minimizeSum
      | .sharedOperators => Shared.schedule problem last minimizeSum := by
  cases variant <;> rw [Scheduler.run, map_measuredStarts_int]

/-- Schedulers by linear programs differ by what comes of it for each variant only. -/
theorem outcome_run_simplex (problem : Problem Int) (variant : Variant) (last : Option String)
    (minimizeSum : Bool) :
    ((Scheduler.simplex variant last minimizeSum).run problem).outcome =
      (match variant with
        | .basic => Precedence.schedule problem last minimizeSum
        | .cyclic => Cyclic.schedule problem last minimizeSum
        | .sharedOperators => Shared.schedule problem last minimizeSum).outcome :=
  congrArg Narrated.outcome (run_simplex problem variant last minimizeSum)

/-- Once the last operation is found, a scheduler by linear programs can be set up. -/
theorem create_simplex {variant : Variant} {last resolved : Option String}
    (isResolved : problem.resolveLast last = .ok resolved) (minimizeSum : Bool) :
    Scheduler.create problem .simplex variant last minimizeSum =
      .ok (.simplex variant resolved (minimizeSum || variant = .sharedOperators)) := by
  rw [Scheduler.create, Scheduler.forVariant, isResolved]
  rfl

/-- Operations that are started one after the other are told of with their starts, which stay what
they are. -/
theorem startInOrder_told {graph : Graph Int} {nodes : List String} {starts final : NameTable Int}
    (distinct : nodes.Nodup)
    (started : (Asap.startInOrder graph starts nodes).outcome = .ok final) :
    (∀ name ∉ nodes, final.get? name = starts.get? name) ∧
      (Asap.startInOrder graph starts nodes).events =
        nodes.map fun node => .scheduled node (.whole (final.valueAt node)) := by
  -- By induction on the operations still to be started, from whatever starts there are.
  induction nodes generalizing starts with
  | nil =>
    obtain rfl := Except.ok.inj started
    exact ⟨fun _ _ => rfl, rfl⟩
  | cons node nodes ih =>
    obtain ⟨absent, distinct⟩ := List.nodup_cons.mp distinct
    unfold Asap.startInOrder at started ⊢
    simp only [Narrated.outcome_bind, Narrated.outcome_lift, Narrated.outcome_tell, ok_bind,
      bind_eq_ok_iff] at started
    obtain ⟨ready, isReady, rest⟩ := started
    rw [isReady, Narrated.lift_ok_bind, Narrated.bind_of_ok (Narrated.outcome_tell _)]
    obtain ⟨kept, told⟩ := ih distinct rest
    -- The operation that comes first is started once and for all.
    have first := NameTable.valueAt_of_get? ((kept node absent).trans NameTable.get?_put_self)
    refine ⟨fun name other => ?_, ?_⟩
    · obtain ⟨different, later⟩ := not_or.mp (List.mem_cons.not.mp other)
      rw [kept name later, NameTable.get?_put_of_ne (Ne.symm different)]
    · rw [told, List.map_cons, first]
      rfl

section Schedules

variable (wellFormed : problem.WellFormed)
  (single : ∀ dependence ∈ problem.dependences, dependence.distance = 0) {order : List String}
  (sorted : problem.topologicalOrder = .ok order) (all : order.Perm problem.operationNames)
  (follows : Graph.Follows problem.dependences [] order)

include wellFormed single sorted all follows

/-- Scheduling as soon as possible gives the least starts, in the order of the operations, and tells
of them in the order of the graph. -/
theorem WellFormed.outcome_asap : ∃ starts, problem.Least [] starts ∧
    starts.names = problem.operationNames ∧
    (Asap.schedule problem).outcome = .ok ⟨starts, none, .asap⟩ ∧
    (Asap.schedule problem : Narrated (AlgorithmResult Int)).events =
      order.map fun name => .scheduled name (.whole (starts.valueAt name)) := by
  obtain ⟨starts, started, least⟩ := wellFormed.asSoonAsPossible single all follows
  -- The scheduler lists the starts in the order of the operations, not of the graph.
  obtain ⟨listed, names⟩ := least.inOrder wellFormed
  obtain ⟨-, told⟩ := startInOrder_told (all.nodup_iff.mpr wellFormed.operations) started
  have found : ((problem.graph true).nodes.mapM fun node => do
      let start ← startOf starts node
      return (node, start) : Except Fault (List (String × Int))) =
        .ok (problem.operationNames.map fun name => (name, starts.valueAt name)) := by
    refine mapM_ok (fun name => (name, starts.valueAt name)) fun name member => ?_
    -- All of them have been started, so that every look-up succeeds.
    rw [startOf, NameTable.get?_of_mem_names ((least.names name).mpr member)]
    rfl
  refine ⟨_, listed, names, ?_⟩
  unfold Asap.schedule
  rw [wellFormed.ofProblem, Narrated.lift_ok_bind, wellFormed.topologicalOrder_graph, sorted,
    Narrated.lift_ok_bind, Narrated.bind_of_ok started, found, Narrated.lift_ok_bind,
    NameTable.ofPairs_of_nodup listed.distinct]
  refine ⟨rfl, ?_⟩
  -- What was told on the way is what the list says.
  rw [told]
  refine (List.append_nil _).trans (List.map_congr_left fun name member => ?_)
  rw [NameTable.valueAt_map_pair _ (all.mem_iff.mp member)]

/-- The linear programs give starts that respect the dependences, with the last operation as early
as it can be; with the sum of starts minimised, they are the least ones as well. -/
theorem WellFormed.outcome_precedence {resolved : Option String}
    (hasLast : problem.HasLast resolved) (minimizeSum : Bool) :
    ∃ starts metadata, (Precedence.schedule problem resolved minimizeSum).outcome =
        .ok ⟨starts, none, metadata⟩ ∧
      problem.Respects starts 0 ∧ (minimizeSum = true → problem.Least [] starts) ∧
      ∀ name, resolved = some name → ∀ x, problem.Admissible [] x →
        (starts.valueAt name : Rat) ≤ x name := by
  obtain ⟨propagated, _, least⟩ := wellFormed.asSoonAsPossible single all follows
  cases resolved with
  | none =>
    -- Without operations the empty table is the least one.
    have empty := least.nil hasLast
    refine ⟨[], Precedence.report none .none, ?_, empty.respects ?_, fun _ => empty, by simp⟩
    · simp only [Precedence.schedule, Narrated.outcome_bind, Narrated.outcome_lift, sorted, ok_bind]
      rfl
    · rw [operationNames, show problem.operations = [] from hasLast]
      rfl
  | some last =>
    obtain ⟨program, solution, effort, built, _, solved, decoded, lastFirst⟩ :=
      wellFormed.exists_lastFirst single minimizeSum all follows hasLast
    refine ⟨solution.startsOf problem.operationNames, Precedence.report (some last) effort,
      ?_, ?_, ?_, ?_⟩
    · unfold Precedence.schedule
      simp only [Narrated.outcome_bind, Narrated.outcome_lift, sorted, ok_bind, Option.isNone_some,
        Bool.false_eq_true, if_false, outcome_narratedPrecedenceProgram, built, solved, decoded,
        Narrated.outcome_tell]
      rfl
    · -- The solution is feasible, and so are its starts, which are whole.
      refine wellFormed.respects_startsOf
        (fun name known => lastFirst.whole _ (mem_startUnknowns.mpr known))
        lastFirst.point.nonneg fun dependence member => ?_
      simpa using lastFirst.point.ordered dependence member
    · -- With the sum minimised the solution is that of propagation.
      rintro rfl
      exact least.of_get?_eq (lastFirst.get?_startsOf least)
        ((Solution.names_startsOf _ _).symm ▸ wellFormed.operations)
    · -- Other starts are a point of the program as well.
      rintro name isLast x admissible
      obtain rfl := Option.some.inj isLast
      obtain ⟨point, _, rfl⟩ := exists_point x 0
      rw [Solution.valueAt_startsOf hasLast (lastFirst.whole _ (mem_startUnknowns.mpr hasLast))]
      exact lastFirst.earliest point admissible

end Schedules

/-- A cycle stops scheduling as soon as possible before anything is told. -/
theorem asap_of_cycle {fault : Fault} (wellFormed : problem.WellFormed)
    (failed : problem.topologicalOrder = .error fault) :
    (Asap.schedule problem : Narrated (AlgorithmResult Int)) = .fail fault := by
  rw [Asap.schedule, wellFormed.ofProblem, Narrated.lift_ok_bind,
    wellFormed.topologicalOrder_graph, failed, Narrated.lift_error_bind]

/-- A cycle stops scheduling by linear programs before anything is told. -/
theorem precedence_of_cycle {fault : Fault} {resolved : Option String} {minimizeSum : Bool}
    (failed : problem.topologicalOrder = .error fault) :
    Precedence.schedule problem resolved minimizeSum = .fail fault := by
  rw [Precedence.schedule, failed, Narrated.lift_error_bind]

/-- A cycle is reported under the names of its operations, which can be written. -/
theorem told_of_cycle {narrated : Narrated (AlgorithmResult Int)} {cycle : List String}
    (failed : narrated = .fail (.cyclicDependence cycle)) (cutoff : Level) :
    (narrated.told cutoff).outcome = .error (.cyclicDependence cycle) := by
  rw [failed, Narrated.told_fail, Fault.reported_of_isWritable rfl]

/-- Starts that are told of can be told where they can be written. -/
theorem isTellable_scheduled {narrated : Narrated (AlgorithmResult Int)} {order : List String}
    (told : narrated.events = order.map fun name => .scheduled name (.whole (starts.valueAt name)))
    (cutoff : Level) : narrated.IsTellable cutoff ↔
      ∀ name ∈ order, Text.isWritable (starts.valueAt name) = true := by
  rw [Narrated.IsTellable, told, List.forall_mem_map]
  refine forall_congr' fun name => forall_congr' fun _ => ?_
  -- The message is put together whether anyone reads it or not.
  simp [Event.IsTellable, Event.isComposed, Event.isGuarded, Event.text]

/-- Two products over one multiplier, and their sum. -/
def sumOfProducts : Problem Int :=
  ⟨"sum of products", [⟨"mul", 2, some 1⟩, ⟨"add", 1, none⟩],
    [⟨"x", "mul", none⟩, ⟨"y", "mul", none⟩, ⟨"sum", "add", none⟩],
    [⟨"x", "sum", 0⟩, ⟨"y", "sum", 0⟩], none⟩

/-- The sum of products passes the check for every variant. -/
theorem check_sumOfProducts (variant : Variant) :
    sumOfProducts.values.check (some variant) = .ok () := by
  refine check_values_iff.mpr ⟨⟨?_, ?_, ?_, ?_, ?_, ?_, ?_⟩, ?_⟩ <;>
    simp [sumOfProducts, operationNames, Fits]

/-- Two operations, of which one needs the result of the other. -/
def relay (latency : Int) : Problem Int :=
  ⟨"relay", [⟨"wire", latency, none⟩], [⟨"first", "wire", none⟩, ⟨"second", "wire", none⟩],
    [⟨"first", "second", 0⟩], none⟩

/-- One operation whose result two others need. -/
def fork (latency : Int) : Problem Int :=
  ⟨"fork", [⟨"wire", latency, none⟩],
    [⟨"first", "wire", none⟩, ⟨"left", "wire", none⟩, ⟨"right", "wire", none⟩],
    [⟨"first", "left", 0⟩, ⟨"first", "right", 0⟩], none⟩

/-- A relay is well formed, however long it takes. -/
theorem check_relay {latency : Int} (nonneg : 0 ≤ latency) (variant : Variant) :
    (relay latency).values.check (some variant) = .ok () := by
  refine check_values_iff.mpr ⟨⟨?_, ?_, ?_, ?_, ?_, ?_, ?_⟩, ?_⟩ <;>
    simp [relay, operationNames, Fits, nonneg]

/-- The second operation of a relay comes last. -/
theorem not_hasCycle_relay (latency : Int) : ¬HasCycle (relay latency).values.dependences := by
  -- The first operation can be placed in front of the second.
  have follows : Graph.Follows (relay latency).dependences [] ["first", "second"] := by
    simp [Graph.Follows, relay]
  rw [hasCycle_values]
  exact follows.not_hasCycle (by simp [relay])

/-- The sum of products has no cycle. -/
theorem not_hasCycle_sumOfProducts : ¬HasCycle sumOfProducts.values.dependences := by
  -- The sum comes last.
  have follows : Graph.Follows sumOfProducts.dependences [] ["x", "y", "sum"] := by
    simp [Graph.Follows, sumOfProducts]
  rw [hasCycle_values]
  exact follows.not_hasCycle (by simp [sumOfProducts])

end Problem

/-- For every checked problem without distances and limits, scheduling as soon as possible names a
cycle just when there is one. Otherwise it has a start for each operation, the starts are valid, and
no valid start times have any operation start earlier; they are returned if all of them can be
written. -/
theorem asap_schedule_is_least {problem : Problem Value}
    (checked : problem.check (some .basic) = .ok ()) (cutoff : Level) :
    ∃ task : Problem Int, problem.whole = .ok task ∧
      ((∃ cycle, ((Asap.schedule task : Narrated (AlgorithmResult Int)).told cutoff).outcome =
          .error (.cyclicDependence cycle)) ↔ HasCycle problem.dependences) ∧
      (¬HasCycle problem.dependences → ∃ starts : NameTable Int,
        ((Asap.schedule task).told cutoff).outcome =
          (if ∀ name ∈ problem.operationNames, Text.isWritable (starts.valueAt name) = true then
            .ok ⟨starts, none, .asap⟩
          else .error .unwritable) ∧
        starts.names = problem.operationNames ∧
        task.checkSchedule starts.known none .basic = .ok () ∧
        ∀ other, task.checkSchedule other none .basic = .ok () →
          ∀ name ∈ problem.operationNames, ∃ start later, starts.get? name = some start ∧
            other.get? name = some (some later) ∧ start ≤ later) := by
  obtain ⟨task, rfl, wellFormed, fits⟩ := Problem.exists_values_of_check checked
  have single := fits.single (by simp)
  rw [Problem.hasCycle_values]
  refine ⟨task, task.whole_values, ?_⟩
  rcases wellFormed.topologicalOrder single with ⟨order, sorted, all, follows⟩ |
    ⟨⟨cycle, failed⟩, hasCycle⟩
  · obtain ⟨starts, least, names, found, told⟩ :=
      wellFormed.outcome_asap single sorted all follows
    have acyclic : ¬HasCycle task.dependences := follows.not_hasCycle fun edge member =>
      all.mem_iff.mpr (wellFormed.endpoints edge member).2
    have ends : ((Asap.schedule task).told cutoff).outcome = _ := Narrated.endsAs_of_ok found
    simp only [Problem.isTellable_scheduled told, all.mem_iff] at ends
    refine ⟨?_, fun _ => ⟨starts, ends, names,
      (least.respects names).checkSchedule wellFormed fits (by simp) (by simp),
      fun other passed => ?_⟩⟩
    · rw [ends]
      split_ifs <;> simp [acyclic]
    -- Other starts that pass the check are admissible, and the least ones are not after them.
    obtain ⟨others, gives, admissible⟩ := wellFormed.admissible_of_checkSchedule passed
    exact fun name member => gives.exists_later names member (by
      exact_mod_cast least.least _ admissible name member)
  · -- The operations cannot be sorted, and so they are not scheduled either.
    have failed := Problem.told_of_cycle (Problem.asap_of_cycle wellFormed failed) cutoff
    exact ⟨by simp [failed, hasCycle], fun acyclic => absurd hasCycle acyclic⟩

/-- The sum of the products starts when both of them are there. -/
theorem sumOfProducts_is_least :
    ∃ (task : Problem Int) (starts : NameTable Int),
      Problem.sumOfProducts.values.whole = .ok task ∧
      ((Asap.schedule task).told .error).outcome =
        (if ∀ name ∈ Problem.sumOfProducts.values.operationNames,
            Text.isWritable (starts.valueAt name) = true then .ok ⟨starts, none, .asap⟩
          else .error .unwritable) ∧
      starts.names = ["x", "y", "sum"] ∧
      task.checkSchedule starts.known none .basic = .ok () ∧
      ∀ other, task.checkSchedule other none .basic = .ok () →
        ∀ name ∈ Problem.sumOfProducts.values.operationNames, ∃ start later,
          starts.get? name = some start ∧ other.get? name = some (some later) ∧
            start ≤ later := by
  obtain ⟨task, whole, _, least⟩ :=
    asap_schedule_is_least (Problem.check_sumOfProducts .basic) .error
  -- Without a cycle the theorem gives the starts themselves.
  obtain ⟨starts, found⟩ := least Problem.not_hasCycle_sumOfProducts
  exact ⟨task, starts, whole, found⟩

/-- A start with too many digits cannot be told of, even where nobody is shown it. -/
theorem relay_start_is_lost :
    let problem := Problem.relay Text.leastUnwritable
    problem.values.check (some .basic) = .ok () ∧ ¬HasCycle problem.values.dependences ∧
      ((Asap.schedule problem : Narrated (AlgorithmResult Int)).told .error).outcome =
        .error .unwritable := by
  refine ⟨Problem.check_relay (by decide +kernel) .basic, Problem.not_hasCycle_relay _, ?_⟩
  -- The second operation starts as late as the first one takes.
  rw [Narrated.outcome_told, if_neg (by decide +kernel)]

end CycleSchedule
