import CycleSchedule.Proofs.Linear.Rule

/-! What a series of pivots by the lowest-column rule keeps, and what its end says about the
objective. -/

namespace CycleSchedule.Tableau

variable {width : Nat} {tableau next : Tableau} {allowed : Nat → Bool} {column index : Nat}

/-- A tableau to pivot on: canonical, with a feasible basic point and a priced objective. -/
structure Proper (width : Nat) (tableau : Tableau) : Prop where
  canonical : tableau.Canonical width
  feasible : tableau.Feasible
  priced : tableau.Priced width

/-- Two tableaux have the same solutions, and these cost the same in both. -/
structure SameProgram (tableau next : Tableau) : Prop where
  solves : ∀ x, next.Solves x ↔ tableau.Solves x
  cost : ∀ x, tableau.Solves x → next.cost x = tableau.cost x

/-- A tableau states the same program as itself. -/
theorem SameProgram.refl (tableau : Tableau) : SameProgram tableau tableau :=
  ⟨fun _ => Iff.rfl, fun _ _ => rfl⟩

/-- Stating the same program carries over from step to step. -/
theorem SameProgram.trans {last : Tableau} (first : SameProgram tableau next)
    (second : SameProgram next last) : SameProgram tableau last where
  solves x := (second.solves x).trans (first.solves x)
  cost x holds := (second.cost x ((first.solves x).mpr holds)).trans (first.cost x holds)

/-- Stating the same program goes both ways. -/
theorem SameProgram.symm (same : SameProgram tableau next) : SameProgram next tableau where
  solves x := (same.solves x).symm
  cost x holds := (same.cost x ((same.solves x).mp holds)).symm

/-- Columns from which a program may choose: none negative, and zero where nothing may enter. -/
structure Admits (width : Nat) (allowed : Nat → Bool) (x : Nat → Rat) : Prop where
  nonneg : ∀ column < width, 0 ≤ x column
  zero : ∀ column < width, allowed column = false → x column = 0

/-- The tableau after one more pivot, if there is one to make. -/
def next? (allowed : Nat → Bool) (tableau : Tableau) : Option Tableau := do
  let column ← tableau.enteringColumn allowed
  let index ← tableau.leavingRow column
  return tableau.pivot index column

/-- One pivot by the lowest-column rule. -/
structure Step (allowed : Nat → Bool) (tableau next : Tableau) (column : Nat) (row : Row) :
    Prop where
  entering : tableau.enteringColumn allowed = some column
  positive : 0 < row.entry column
  member : row ∈ tableau.rows
  tightest : ∀ other ∈ tableau.rows, 0 < other.entry column →
    row.rhs / row.entry column < other.rhs / other.entry column ∨
      row.rhs / row.entry column = other.rhs / other.entry column ∧ row.basic ≤ other.basic
  pivoted : ∃ index, tableau.rows[index]? = some row ∧ next = tableau.pivot index column
  led : tableau.next? allowed = some next

/-- The choices of the rule make up a pivot. -/
theorem Step.of_choices (entering : tableau.enteringColumn allowed = some column)
    (leaving : tableau.leavingRow column = some index) :
    ∃ row, Step allowed tableau (tableau.pivot index column) column row := by
  obtain ⟨row, found, positive, tightest⟩ := leavingRow_some leaving
  exact ⟨row, entering, positive, List.mem_of_getElem? found, tightest, ⟨index, found, rfl⟩, by
    simp [next?, entering, leaving]⟩

section Step

variable {row : Row}

/-- The new column takes a value that is not negative. -/
theorem Step.ratio_nonneg (step : Step allowed tableau next column row)
    (proper : tableau.Proper width) : 0 ≤ row.rhs / row.entry column :=
  div_nonneg (proper.feasible row step.member) step.positive.le

/-- The new column was not basic before. -/
theorem Step.not_mem_basics (step : Step allowed tableau next column row)
    (proper : tableau.Proper width) : column ∉ tableau.basics := by
  -- Basic columns have no cost, and the entering one has a negative one.
  intro basic
  obtain ⟨other, member, same⟩ := mem_basics.mp basic
  have negative := (enteringColumn_some step.entering).2.2.1
  rw [← same, proper.priced.free other member] at negative
  exact lt_irrefl _ negative

/-- A step puts the entering column in the place of the leaving one. -/
theorem Step.basics (step : Step allowed tableau next column row)
    (proper : tableau.Proper width) :
    next.basics = insert column (tableau.basics.erase row.basic) := by
  obtain ⟨index, found, same⟩ := step.pivoted
  subst same
  exact proper.canonical.basics_pivot found

/-- The value changes by the cost of the new column times the value that it takes. -/
theorem Step.value (step : Step allowed tableau next column row) :
    next.value = tableau.value +
      tableau.reduced.getD column 0 * (row.rhs / row.entry column) := by
  obtain ⟨index, found, same⟩ := step.pivoted
  subst same
  exact pivot_value found column

/-- The value never rises. -/
theorem Step.value_le (step : Step allowed tableau next column row)
    (proper : tableau.Proper width) : next.value ≤ tableau.value := by
  -- A negative cost is multiplied with a value that is not negative.
  have negative := (enteringColumn_some step.entering).2.2.1
  have change := mul_nonpos_of_nonpos_of_nonneg negative.le (step.ratio_nonneg proper)
  rw [step.value]
  linarith

/-- The tightest bound keeps all right-hand sides from becoming negative. -/
theorem Step.proper (step : Step allowed tableau next column row)
    (proper : tableau.Proper width) : next.Proper width := by
  obtain ⟨index, found, same⟩ := step.pivoted
  subst same
  have nonzero := step.positive.ne'
  refine ⟨proper.canonical.pivot found nonzero, ?_,
    proper.canonical.priced_pivot proper.priced found nonzero⟩
  have ratio := step.ratio_nonneg proper
  intro after afterMember
  obtain ⟨other, otherMember, rfl⟩ := (proper.canonical.mem_pivot found).mp afterMember
  rw [rhs_pivotedRow]
  -- The row left gets the ratio, all others lose a multiple of it.
  split
  · exact ratio
  · -- A negative entry adds to the right-hand side, and for a positive one the ratio is lowest.
    have old := proper.feasible other otherMember
    rcases le_or_gt (other.entry column) 0 with small | large
    · have change : other.entry column * (row.rhs / row.entry column) ≤ 0 :=
        mul_nonpos_of_nonpos_of_nonneg small ratio
      linarith
    · have bound : row.rhs / row.entry column ≤ other.rhs / other.entry column := by
        rcases step.tightest other otherMember large with less | ⟨same, _⟩
        · exact less.le
        · exact same.le
      rw [le_div_iff₀ large] at bound
      linarith

/-- A step keeps the program: solutions and costs stay as they are. -/
theorem Step.sameProgram (step : Step allowed tableau next column row)
    (proper : tableau.Proper width) : SameProgram tableau next := by
  -- A step is a pivot on an entry that is not zero.
  obtain ⟨index, found, same⟩ := step.pivoted
  subst same
  exact ⟨fun _ => proper.canonical.solves_pivot_iff found step.positive.ne',
    fun _ holds => proper.canonical.cost_pivot proper.priced found holds⟩

end Step

/-- When no column may enter, no admitted solution costs less than the basic point. -/
theorem Proper.value_le_cost (proper : tableau.Proper width)
    (nothing : tableau.enteringColumn allowed = none) {x : Nat → Rat}
    (admits : Admits width allowed x) :
    tableau.value ≤ tableau.cost x := by
  -- What may enter has no negative cost, and the rest is zero.
  have rest : 0 ≤ combine tableau.reduced x := by
    refine combine_nonneg fun column within => ?_
    have inside : column < width := proper.priced.sized ▸ within
    cases permitted : allowed column with
    | false => rw [admits.zero column inside permitted, mul_zero]
    | true =>
      exact mul_nonneg (enteringColumn_none nothing column within permitted)
        (admits.nonneg column inside)
  unfold cost
  linarith

/-- The solution in which one column that is not basic has a given value, and the basic columns make
up for it. -/
def ray (tableau : Tableau) (column : Nat) (amount : Rat) (place : Nat) : Rat :=
  match tableau.rows.find? (·.basic = place) with
  | some row => row.rhs - row.entry column * amount
  | none => if place = column then amount else 0

/-- Along a ray a basic column pays for the new one with its coefficient. -/
theorem Canonical.ray_basic (canonical : tableau.Canonical width) {row : Row}
    (member : row ∈ tableau.rows) (column : Nat) (amount : Rat) :
    tableau.ray column amount row.basic = row.rhs - row.entry column * amount := by
  simp [ray, canonical.find_basic member]

/-- Along a ray all columns that are not basic stay at zero, but for the one that grows. -/
theorem ray_of_not_mem {place : Nat} (free : place ∉ tableau.basics) (column : Nat)
    (amount : Rat) : tableau.ray column amount place = if place = column then amount else 0 := by
  simp [ray, find_eq_none free]

/-- Every point of a ray satisfies the equations. -/
theorem Canonical.solves_ray (canonical : tableau.Canonical width) (inside : column < width)
    (free : column ∉ tableau.basics) (amount : Rat) :
    tableau.Solves (tableau.ray column amount) := by
  -- What the growing column adds to an equation, the basic column of its row takes away.
  intro row member
  rw [canonical.combine_row member, canonical.ray_basic member,
    Finset.sum_eq_single_of_mem column
      (Finset.mem_sdiff.mpr ⟨Finset.mem_range.mpr inside, free⟩)]
  · rw [ray_of_not_mem free, if_pos rfl]
    ring
  · intro place free different
    rw [ray_of_not_mem (Finset.mem_sdiff.mp free).2, if_neg different, mul_zero]

/-- Along a ray the objective grows by the cost of the column. -/
theorem Priced.cost_ray (priced : tableau.Priced width) (inside : column < width)
    (free : column ∉ tableau.basics) (amount : Rat) :
    tableau.cost (tableau.ray column amount) =
      tableau.value + tableau.reduced.getD column 0 * amount := by
  -- Only the growing column has both a price and a value.
  rw [cost, combine_eq_single column (priced.sized.symm ▸ inside)]
  · rw [ray_of_not_mem free, if_pos rfl]
  · intro place _ different
    by_cases basic : place ∈ tableau.basics
    · obtain ⟨row, member, same⟩ := mem_basics.mp basic
      rw [← same, priced.free row member, zero_mul]
    · rw [ray_of_not_mem basic, if_neg different, mul_zero]

/-- If nothing bounds the entering column, admitted solutions cost as little as one likes. -/
theorem Proper.exists_cost_lt (proper : tableau.Proper width)
    (only : ∀ place ∈ tableau.basics, allowed place = true)
    (entering : tableau.enteringColumn allowed = some column)
    (nothing : tableau.leavingRow column = none) (limit : Rat) :
    ∃ x, tableau.Solves x ∧ Admits width allowed x ∧ tableau.cost x < limit := by
  obtain ⟨within, permitted, negative, _⟩ := enteringColumn_some entering
  have inside : column < width := proper.priced.sized ▸ within
  -- The entering column has a negative cost, so it is not basic.
  have free : column ∉ tableau.basics := by
    intro basic
    obtain ⟨row, member, same⟩ := mem_basics.mp basic
    rw [← same, proper.priced.free row member] at negative
    exact lt_irrefl _ negative
  -- Far enough along the ray the cost has fallen below the limit, whatever it was at the start.
  let amount := (|tableau.value - limit| + 1) / -tableau.reduced.getD column 0
  have positive : 0 ≤ amount := div_nonneg (by positivity) (by linarith)
  refine ⟨tableau.ray column amount, proper.canonical.solves_ray inside free amount, ⟨?_, ?_⟩, ?_⟩
  · -- No basic column falls, since no coefficient of the entering column is positive.
    intro place _
    by_cases basic : place ∈ tableau.basics
    · obtain ⟨row, member, same⟩ := mem_basics.mp basic
      rw [← same, proper.canonical.ray_basic member]
      have small := leavingRow_none nothing row member
      have pays := mul_nonpos_of_nonpos_of_nonneg small positive
      have old := proper.feasible row member
      linarith
    · rw [ray_of_not_mem basic]
      split
      · exact positive
      · exact le_rfl
  · -- Whatever is not zero on the ray was allowed to enter.
    intro place _ refused
    by_cases basic : place ∈ tableau.basics
    · simp [only place basic] at refused
    · rw [ray_of_not_mem basic, if_neg]
      rintro rfl
      simp [permitted] at refused
  · -- The cost falls by more than its distance to the limit.
    have total : tableau.reduced.getD column 0 * amount = -(|tableau.value - limit| + 1) := by
      have nonzero := negative.ne
      simp only [amount]
      field_simp
    rw [proper.priced.cost_ray inside free, total]
    have bound := le_abs_self (tableau.value - limit)
    linarith

/-- What holds at the end of a series of pivots, with the reason why it ended. -/
structure Ends (width : Nat) (allowed : Nat → Bool) (tableau : Tableau) (result : Optimized) :
    Prop where
  proper : result.tableau.Proper width
  same : SameProgram tableau result.tableau
  basics : ∀ place ∈ result.tableau.basics, place ∈ tableau.basics ∨ allowed place = true
  optimal : result.halt = .optimal → result.tableau.enteringColumn allowed = none
  unbounded : result.halt = .unbounded → ∃ column,
    result.tableau.enteringColumn allowed = some column ∧ result.tableau.leavingRow column = none

/-- Every series of pivots from a proper tableau ends in a proper one of the same program. -/
theorem Proper.optimize (allowed : Nat → Bool) : ∀ fuel (tableau : Tableau),
    tableau.Proper width → Ends width allowed tableau (optimize allowed fuel tableau) := by
  -- The induction is on the fuel; a series ends early if there is nothing to choose.
  intro fuel
  induction fuel with
  | zero =>
    intro tableau proper
    exact ⟨proper, .refl _, fun _ basic => Or.inl basic, by simp [Tableau.optimize],
      by simp [Tableau.optimize]⟩
  | succ fuel ih =>
    intro tableau proper
    unfold Tableau.optimize
    cases entering : tableau.enteringColumn allowed with
    | none => exact ⟨proper, .refl _, fun _ basic => Or.inl basic, fun _ => entering, by simp⟩
    | some column =>
      dsimp only
      cases leaving : tableau.leavingRow column with
      | none =>
        exact ⟨proper, .refl _, fun _ basic => Or.inl basic, by simp,
          fun _ => ⟨column, entering, leaving⟩⟩
      | some index =>
        -- One pivot, and then the rest of the series from the tableau that it leads to.
        obtain ⟨row, step⟩ := Step.of_choices entering leaving
        have rest := ih _ (step.proper proper)
        refine ⟨rest.proper, (step.sameProgram proper).trans rest.same, fun place basic => ?_,
          rest.optimal, rest.unbounded⟩
        -- A column that is basic in the end has been so before, or has entered by now.
        rcases rest.basics place basic with before | permitted
        · rw [step.basics proper, Finset.mem_insert, Finset.mem_erase] at before
          rcases before with rfl | ⟨_, old⟩
          · exact Or.inr (enteringColumn_some entering).2.1
          · exact Or.inl old
        · exact Or.inr permitted

end CycleSchedule.Tableau
