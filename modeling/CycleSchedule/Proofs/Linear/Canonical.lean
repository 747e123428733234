import CycleSchedule.Proofs.Linear.Combination

/-! Canonical tableaux, whose rows are solved for a column of their own each, and their basic point.
-/

namespace CycleSchedule

namespace Row

variable {row pivotRow : Row} {column : Nat}

/-- Dividing an equation divides its coefficients. -/
theorem entry_solvedFor (row : Row) (column place : Nat) :
    (row.solvedFor column).entry place = row.entry place / row.entry column :=
  getD_map_div _ _ _

/-- Dividing an equation divides its sum. -/
theorem combine_solvedFor (row : Row) (column : Nat) (x : Nat → Rat) :
    combine (row.solvedFor column).coefficients x =
      combine row.coefficients x / row.entry column :=
  combine_map_div _ _ _

/-- Solving a row for a column keeps its length. -/
@[simp] theorem length_solvedFor (row : Row) (column : Nat) :
    (row.solvedFor column).coefficients.length = row.coefficients.length := by
  simp [solvedFor]

/-- Eliminating a column from a row keeps the row's basic column. -/
@[simp] theorem basic_eliminate (row : Row) (column : Nat) (pivotRow : Row) :
    (row.eliminate column pivotRow).basic = row.basic := by
  -- A row without the column is left as it is.
  by_cases zero : row.entry column = 0 <;> simp [eliminate, zero]

/-- Removing a column subtracts a multiple of the other right-hand side. -/
theorem rhs_eliminate (row : Row) (column : Nat) (pivotRow : Row) :
    (row.eliminate column pivotRow).rhs = row.rhs - row.entry column * pivotRow.rhs := by
  by_cases zero : row.entry column = 0 <;> simp [eliminate, zero]

/-- Removing a column keeps the number of coefficients. -/
theorem length_eliminate (same : row.coefficients.length = pivotRow.coefficients.length) :
    (row.eliminate column pivotRow).coefficients.length = row.coefficients.length := by
  by_cases zero : row.entry column = 0 <;> simp [eliminate, zero, same]

/-- Removing a column subtracts a multiple of the other equation in every place. -/
theorem entry_eliminate (same : row.coefficients.length = pivotRow.coefficients.length)
    (place : Nat) : (row.eliminate column pivotRow).entry place =
      row.entry place - row.entry column * pivotRow.entry place := by
  -- Subtracting nothing changes nothing, so both cases come to the same.
  by_cases zero : row.entry column = 0
  · simp [eliminate, zero]
  · simp only [eliminate, if_neg zero]
    exact getD_subtractMultiple same place

/-- Removing a column subtracts a multiple of the other sum. -/
theorem combine_eliminate (same : row.coefficients.length = pivotRow.coefficients.length)
    (x : Nat → Rat) : combine (row.eliminate column pivotRow).coefficients x =
      combine row.coefficients x - row.entry column * combine pivotRow.coefficients x := by
  -- As for a single place, a row without the column loses nothing.
  by_cases zero : row.entry column = 0
  · simp [eliminate, zero]
  · simp only [eliminate, if_neg zero]
    exact combine_subtractMultiple same x

/-- Only columns of the equation have coefficients other than zero. -/
theorem lt_length_of_entry_ne_zero (nonzero : row.entry column ≠ 0) :
    column < row.coefficients.length := by
  -- Beyond the end of the list there are only zeros.
  by_contra beyond
  exact nonzero (List.getD_eq_default _ _ (not_lt.mp beyond))

end Row

namespace Tableau

variable {width : Nat} {tableau : Tableau}

/-- The columns that rows are solved for. -/
def basics (tableau : Tableau) : Finset Nat := (tableau.rows.map (·.basic)).toFinset

/-- Every row is solved for a column of its own that no other row mentions. -/
structure Canonical (width : Nat) (tableau : Tableau) : Prop where
  sized : ∀ row ∈ tableau.rows, row.coefficients.length = width
  within : ∀ row ∈ tableau.rows, row.basic < width
  distinct : (tableau.rows.map (·.basic)).Nodup
  unit : ∀ row ∈ tableau.rows, row.entry row.basic = 1
  alone : ∀ row ∈ tableau.rows, ∀ other ∈ tableau.rows, row.basic ≠ other.basic →
    row.entry other.basic = 0

/-- Columns for which every equation holds. -/
def Solves (tableau : Tableau) (x : Nat → Rat) : Prop :=
  ∀ row ∈ tableau.rows, combine row.coefficients x = row.rhs

/-- No right-hand side is negative. -/
def Feasible (tableau : Tableau) : Prop := ∀ row ∈ tableau.rows, 0 ≤ row.rhs

/-- The objective is expressed by the columns that are not basic. -/
structure Priced (width : Nat) (tableau : Tableau) : Prop where
  sized : tableau.reduced.length = width
  free : ∀ row ∈ tableau.rows, tableau.reduced.getD row.basic 0 = 0

/-- The value of the objective at given columns. -/
def cost (tableau : Tableau) (x : Nat → Rat) : Rat := tableau.value + combine tableau.reduced x

/-- The basis holds the basic columns of the rows. -/
theorem mem_basics {column : Nat} :
    column ∈ tableau.basics ↔ ∃ row ∈ tableau.rows, row.basic = column := by
  simp [basics]

/-- Two rows are not solved for the same column. -/
theorem Canonical.row_unique (canonical : tableau.Canonical width) {row other : Row}
    (member : row ∈ tableau.rows) (otherMember : other ∈ tableau.rows)
    (same : row.basic = other.basic) : row = other :=
  List.inj_on_of_nodup_map canonical.distinct member otherMember same

/-- A column that a row mentions is its own basic column or not basic at all. -/
theorem Canonical.not_mem_basics (canonical : tableau.Canonical width) {row : Row} {column : Nat}
    (member : row ∈ tableau.rows) (nonzero : row.entry column ≠ 0) (other : column ≠ row.basic) :
    column ∉ tableau.basics := by
  -- If another row were solved for the column, this one would not mention it.
  intro basic
  obtain ⟨found, foundMember, same⟩ := mem_basics.mp basic
  subst same
  exact nonzero (canonical.alone row member found foundMember other.symm)

/-- Every basic column is a column of the tableau. -/
theorem Canonical.basics_subset (canonical : tableau.Canonical width) :
    tableau.basics ⊆ Finset.range width := by
  intro column basic
  obtain ⟨row, member, same⟩ := mem_basics.mp basic
  exact Finset.mem_range.mpr (same ▸ canonical.within row member)

/-- The row of a basic column is found by that column. -/
theorem Canonical.find_basic (canonical : tableau.Canonical width) {row : Row}
    (member : row ∈ tableau.rows) : tableau.rows.find? (·.basic = row.basic) = some row := by
  -- The search finds some row for the column, and there is only one.
  cases found : tableau.rows.find? (fun other => decide (other.basic = row.basic)) with
  | none => simpa using List.find?_eq_none.mp found row member
  | some other =>
    have same : other.basic = row.basic := by simpa using List.find?_some found
    rw [canonical.row_unique (List.mem_of_find?_eq_some found) member same]

/-- No row is found by a column that is not basic. -/
theorem find_eq_none {column : Nat} (free : column ∉ tableau.basics) :
    tableau.rows.find? (·.basic = column) = none := by
  simp only [List.find?_eq_none, decide_eq_true_eq]
  exact fun row member same => free (mem_basics.mpr ⟨row, member, same⟩)

/-- A basic column has the right-hand side of its row for its value. -/
theorem Canonical.columnValue_basic (canonical : tableau.Canonical width) {row : Row}
    (member : row ∈ tableau.rows) : tableau.columnValue row.basic = row.rhs := by
  simp [columnValue, canonical.find_basic member]

/-- A column that is not basic has the value zero. -/
theorem columnValue_of_not_mem {column : Nat} (free : column ∉ tableau.basics) :
    tableau.columnValue column = 0 := by
  simp [columnValue, find_eq_none free]

/-- A row is the value of its basic column and a sum over the columns that are not basic. -/
theorem Canonical.combine_row (canonical : tableau.Canonical width) {row : Row}
    (member : row ∈ tableau.rows) (x : Nat → Rat) :
    combine row.coefficients x =
      x row.basic +
        ∑ column ∈ Finset.range width \ tableau.basics, row.entry column * x column := by
  -- Among the basic columns only the row's own one has a coefficient, and that is one.
  have basicPart : ∑ column ∈ tableau.basics, row.entry column * x column = x row.basic := by
    rw [Finset.sum_eq_single_of_mem row.basic (mem_basics.mpr ⟨row, member, rfl⟩)]
    · rw [canonical.unit row member, one_mul]
    · intro column basic different
      obtain ⟨other, otherMember, same⟩ := mem_basics.mp basic
      rw [← same, canonical.alone row member other otherMember (same ▸ different.symm), zero_mul]
  rw [combine, canonical.sized row member,
    ← Finset.sum_sdiff (canonical.basics_subset), add_comm]
  exact congrArg (· + _) basicPart

/-- The basic point satisfies every equation. -/
theorem Canonical.solves_columnValue (canonical : tableau.Canonical width) :
    tableau.Solves tableau.columnValue := by
  -- Only the basic column of the row is not zero, and it is the right-hand side.
  intro row member
  rw [canonical.combine_row member, canonical.columnValue_basic member, Finset.sum_eq_zero,
    add_zero]
  intro column free
  rw [columnValue_of_not_mem (Finset.mem_sdiff.mp free).2, mul_zero]

/-- Solutions that agree in all columns that are not basic agree in the basic ones too. -/
theorem Canonical.solution_unique (canonical : tableau.Canonical width) {x y : Nat → Rat}
    (xSolves : tableau.Solves x) (ySolves : tableau.Solves y)
    (agree : ∀ column < width, column ∉ tableau.basics → x column = y column) :
    ∀ column < width, x column = y column := by
  -- A basic column is what its equation leaves for it once all others are given.
  intro column within
  by_cases basic : column ∈ tableau.basics
  · obtain ⟨row, member, same⟩ := mem_basics.mp basic
    have xRow := xSolves row member
    have yRow := ySolves row member
    rw [canonical.combine_row member] at xRow yRow
    -- The columns without an equation contribute alike to both.
    have rest : ∑ column ∈ Finset.range width \ tableau.basics, row.entry column * x column =
        ∑ column ∈ Finset.range width \ tableau.basics, row.entry column * y column := by
      refine Finset.sum_congr rfl fun column free => ?_
      obtain ⟨inside, notBasic⟩ := Finset.mem_sdiff.mp free
      rw [agree column (Finset.mem_range.mp inside) notBasic]
    rw [← same]
    linarith
  · exact agree column within basic

/-- At the basic point the objective has the value that the tableau gives for it. -/
theorem Priced.cost_columnValue (priced : tableau.Priced width) :
    tableau.cost tableau.columnValue = tableau.value := by
  -- A column has no price if it is basic, and no value if it is not.
  rw [cost, combine_eq_zero, add_zero]
  intro column _
  by_cases basic : column ∈ tableau.basics
  · obtain ⟨row, member, same⟩ := mem_basics.mp basic
    rw [← same, priced.free row member, zero_mul]
  · rw [columnValue_of_not_mem basic, mul_zero]

/-- The basic point of a feasible tableau has no negative column. -/
theorem Canonical.columnValue_nonneg (canonical : tableau.Canonical width)
    (feasible : tableau.Feasible) (column : Nat) : 0 ≤ tableau.columnValue column := by
  -- The value is a right-hand side or zero.
  by_cases basic : column ∈ tableau.basics
  · obtain ⟨row, member, same⟩ := mem_basics.mp basic
    rw [← same, canonical.columnValue_basic member]
    exact feasible row member
  · rw [columnValue_of_not_mem basic]

end Tableau

end CycleSchedule
