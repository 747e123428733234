import CycleSchedule.Proofs.Linear.Strict.Tableau

/-! What pricing sets up and every pivot by the rule keeps: canonical form, the equations, and the
costs that the objective has been priced with. -/

namespace CycleSchedule

namespace Tableau

variable {width : Nat} {costs : List Rat} {allowed : Nat → Bool}
  {origin tableau reached after : Tableau}

/-- A tableau to pivot on with the equations of another one, in which a solution costs what given
costs of the columns add up to. -/
structure Expresses (width : Nat) (costs : List Rat) (origin tableau : Tableau) : Prop where
  proper : tableau.Proper width
  solves : ∀ x, tableau.Solves x ↔ origin.Solves x
  cost : ∀ x, origin.Solves x → tableau.cost x = combine costs x

/-- Pricing expresses any costs, whatever the objective has been before. -/
theorem Canonical.expresses_price (canonical : origin.Canonical width) (feasible : origin.Feasible)
    (sized : costs.length = width) : Expresses width costs origin (origin.price costs) := by
  refine ⟨⟨canonical.price costs, ?_, canonical.priced_price sized⟩, ?_, ?_⟩
  -- Prices are about the objective only, so right-hand sides and equations are the old ones.
  · intro row member
    rw [rows_price] at member
    exact feasible row member
  · intro x
    simp only [Solves, rows_price]
  · intro x solves
    exact canonical.cost_price sized solves

/-- The next tableau comes of one pivot by the rule. -/
theorem exists_step (led : tableau.next? allowed = some after) :
    ∃ column row, Step allowed tableau after column row := by
  unfold next? at led
  cases entering : tableau.enteringColumn allowed with
  | none => simp [entering] at led
  | some column =>
    cases leaving : tableau.leavingRow column with
    | none => simp [entering, leaving] at led
    | some index =>
      -- Both choices have been made, and the pivot is the one that they ask for.
      obtain ⟨row, step⟩ := Step.of_choices entering leaving
      have same : tableau.pivot index column = after := by simpa [entering, leaving] using led
      exact ⟨column, row, same ▸ step⟩

/-- One pivot by the rule keeps what a tableau expresses. -/
theorem Expresses.next (expresses : Expresses width costs origin tableau)
    (led : tableau.next? allowed = some after) : Expresses width costs origin after := by
  obtain ⟨column, row, step⟩ := exists_step led
  have same := step.sameProgram expresses.proper
  refine ⟨step.proper expresses.proper, ?_, ?_⟩
  -- The equations keep their solutions in each step.
  · intro x
    exact (same.solves x).trans (expresses.solves x)
  · -- A solution of the first equations is one of those before the pivot.
    intro x solves
    exact (same.cost x ((expresses.solves x).mpr solves)).trans (expresses.cost x solves)

/-- Tableaux that any number of pivots by the rule lead to. Each time other columns may be allowed
to enter. -/
inductive PivotsTo (tableau : Tableau) : Tableau → Prop
  | start : PivotsTo tableau tableau
  | pivot {reached after : Tableau} {allowed : Nat → Bool} (before : PivotsTo tableau reached)
      (led : reached.next? allowed = some after) : PivotsTo tableau after

/-- Any number of pivots keeps what a tableau expresses. -/
theorem Expresses.pivotsTo (expresses : Expresses width costs origin tableau)
    (pivots : tableau.PivotsTo reached) : Expresses width costs origin reached := by
  -- The induction is on the pivots; the last of them keeps what those before it have kept.
  induction pivots with
  | start => exact expresses
  | pivot _ led ih => exact ih.next led

end Tableau

open Tableau

/-- Once the objective of a canonical tableau without negative right-hand sides has been priced with
some costs, and after any number of pivots, one more pivot on the column and the row that the rule
chooses leads to such a tableau again. It has the same solutions, each of which costs what the costs
of its columns add up to; its basic columns have no cost, and its value is no higher. The pivot that
changes the lists of the tableau place by place makes no slip and comes to the same. -/
theorem pivots_keep_canonical_form {width : Nat} {tableau reached : Tableau} {costs : List Rat}
    (canonical : tableau.Canonical width) (feasible : tableau.Feasible)
    (sized : costs.length = width) (pivots : (tableau.price costs).PivotsTo reached)
    {allowed : Nat → Bool} {column index : Nat}
    (entering : reached.enteringColumn allowed = some column)
    (leaving : reached.leavingRow column = some index) :
    let next := reached.pivot index column
    next.Canonical width ∧ next.Feasible ∧ (∀ x, next.Solves x ↔ tableau.Solves x) ∧
      (∀ x, tableau.Solves x → next.value + combine next.reduced x = combine costs x) ∧
      (∀ row ∈ next.rows, next.reduced.getD row.basic 0 = 0) ∧ next.value ≤ reached.value ∧
      Strict.pivot index column reached.sheet = .ok next.sheet := by
  intro next
  have before := (canonical.expresses_price feasible sized).pivotsTo pivots
  obtain ⟨row, step⟩ := Step.of_choices entering leaving
  have after : Expresses width costs tableau next := before.next step.led
  have proper := before.proper
  refine ⟨after.proper.canonical, after.proper.feasible, after.solves, after.cost,
    after.proper.priced.free, step.value_le proper, ?_⟩
  -- The pivot is on a positive coefficient of the row that is left.
  obtain ⟨chosen, found, positive, _⟩ := leavingRow_some leaving
  exact Strict.pivot_ok proper.canonical.sized proper.priced.sized found positive.ne'

/-- Two products share four hours, and the first may exceed half of the second by one at most. -/
def Tableau.workshop : Tableau :=
  ⟨[⟨[1, 1, 1, 0], 4, 2⟩, ⟨[1, -1 / 2, 0, 1], 1, 3⟩], [], 0, 0⟩

/-- Idle hours have a price as well. After a pivot on the first product the second one enters. -/
theorem workshop_stays_canonical :
    let priced := Tableau.workshop.price [-1, -2, 3, 0]
    let reached := priced.pivot 1 0
    let next := reached.pivot 0 1
    (priced.PivotsTo reached ∧ reached.enteringColumn (fun _ => true) = some 1 ∧
        reached.leavingRow 1 = some 0) ∧
      next.Canonical 4 ∧ next.Feasible ∧ (∀ x, next.Solves x ↔ Tableau.workshop.Solves x) ∧
      (∀ x, Tableau.workshop.Solves x →
        next.value + combine next.reduced x = combine [-1, -2, 3, 0] x) ∧
      (∀ row ∈ next.rows, next.reduced.getD row.basic 0 = 0) ∧ next.value ≤ reached.value ∧
      Strict.pivot 0 1 reached.sheet = .ok next.sheet := by
  intro priced reached next
  -- The workshop starts in canonical form, and one pivot leads to the tableau that is asked for.
  have canonical : Tableau.workshop.Canonical 4 :=
    ⟨by decide, by decide, by decide, by decide +kernel, by decide +kernel⟩
  have feasible : Tableau.workshop.Feasible := by
    unfold Feasible
    decide +kernel
  have led : priced.next? (fun _ => true) = some reached := by decide +kernel
  have pivots : priced.PivotsTo reached := .pivot .start led
  have entering : reached.enteringColumn (fun _ => true) = some 1 := by decide +kernel
  have leaving : reached.leavingRow 1 = some 0 := by decide +kernel
  exact ⟨⟨pivots, entering, leaving⟩,
    pivots_keep_canonical_form canonical feasible rfl pivots entering leaving⟩

end CycleSchedule
