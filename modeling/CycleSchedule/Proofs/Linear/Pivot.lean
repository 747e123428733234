import CycleSchedule.Proofs.Linear.Canonical

/-! Pivots keep a tableau canonical and change neither its solutions nor their cost; pricing
expresses an objective by the columns that are not basic. -/

namespace CycleSchedule.Tableau

variable {width : Nat} {tableau : Tableau}

section Pivot

variable {index column : Nat} {row : Row}

/-- A pivot leaves the pivot row solved for the new column, and removes it from all other rows. -/
def pivotedRow (row : Row) (column : Nat) (other : Row) : Row :=
  if other.basic = row.basic then row.solvedFor column
  else other.eliminate column (row.solvedFor column)

/-- A pivot acts on each row by itself. -/
theorem Canonical.pivot_rows (canonical : tableau.Canonical width)
    (found : tableau.rows[index]? = some row) (column : Nat) :
    (tableau.pivot index column).rows = tableau.rows.map (pivotedRow row column) := by
  -- The pivot row is the only one at its index and the only one with its basic column.
  have distinct := canonical.distinct
  simp only [pivot, found]
  refine List.ext_getElem? fun i => ?_
  simp only [List.getElem?_mapIdx, List.getElem?_map]
  cases at_ : tableau.rows[i]? with
  | none => rfl
  | some other =>
    simp only [Option.map_some, pivotedRow]
    -- The two ways to tell the pivot row apart come to the same.
    by_cases same : i = index
    · subst same
      have equal : other = row := by simpa [found] using at_.symm
      simp [equal]
    · have different : other.basic ≠ row.basic := by
        intro equal
        -- Another row with that basic column would be at the same index.
        have mapped : (tableau.rows.map (·.basic))[i]? = (tableau.rows.map (·.basic))[index]? := by
          simp [at_, found, equal]
        have below : i < (tableau.rows.map (·.basic)).length := by
          simpa using (List.getElem?_eq_some_iff.mp at_).1
        exact same ((List.getElem?_inj below distinct).mp mapped)
      simp [same, different]

/-- A pivot clears the reduced cost of its column and does nothing where that cost is 0 already. -/
theorem pivot_reduced (found : tableau.rows[index]? = some row) (column : Nat) :
    (tableau.pivot index column).reduced =
      if tableau.reduced.getD column 0 = 0 then tableau.reduced
      else subtractMultiple (tableau.reduced.getD column 0) tableau.reduced
        (row.solvedFor column).coefficients := by
  simp [pivot, found]

/-- The value changes by the cost of the new column times the value that it takes. -/
theorem pivot_value (found : tableau.rows[index]? = some row) (column : Nat) :
    (tableau.pivot index column).value =
      tableau.value + tableau.reduced.getD column 0 * (row.rhs / row.entry column) := by
  simp [pivot, found, Row.solvedFor]

/-- The coefficients of a row after a pivot. -/
theorem Canonical.entry_pivotedRow (canonical : tableau.Canonical width)
    (member : row ∈ tableau.rows) (column : Nat) {other : Row}
    (otherMember : other ∈ tableau.rows) (place : Nat) :
    (pivotedRow row column other).entry place =
      if other.basic = row.basic then row.entry place / row.entry column
      else other.entry place - other.entry column * (row.entry place / row.entry column) := by
  -- The pivot row is divided, all others have a multiple of the quotient taken away.
  unfold pivotedRow
  split
  · exact row.entry_solvedFor column place
  · rw [Row.entry_eliminate, row.entry_solvedFor]
    rw [Row.length_solvedFor, canonical.sized row member, canonical.sized other otherMember]

/-- The sum of a row after a pivot. -/
theorem Canonical.combine_pivotedRow (canonical : tableau.Canonical width)
    (member : row ∈ tableau.rows) (column : Nat) {other : Row} (otherMember : other ∈ tableau.rows)
    (x : Nat → Rat) : combine (pivotedRow row column other).coefficients x =
      if other.basic = row.basic then combine row.coefficients x / row.entry column
      else combine other.coefficients x -
        other.entry column * (combine row.coefficients x / row.entry column) := by
  -- As in a single place, so in the sum.
  unfold pivotedRow
  split
  · exact row.combine_solvedFor column x
  · rw [Row.combine_eliminate, row.combine_solvedFor]
    rw [Row.length_solvedFor, canonical.sized row member, canonical.sized other otherMember]

/-- The right-hand side of a row after a pivot. -/
theorem rhs_pivotedRow (row : Row) (column : Nat) (other : Row) :
    (pivotedRow row column other).rhs =
      if other.basic = row.basic then row.rhs / row.entry column
      else other.rhs - other.entry column * (row.rhs / row.entry column) := by
  unfold pivotedRow
  -- The pivot row is divided, and of every other row a multiple of it is taken away.
  split
  · rfl
  · exact other.rhs_eliminate column _

/-- A pivot changes the basic column of the pivot row only. -/
theorem basic_pivotedRow (row : Row) (column : Nat) (other : Row) :
    (pivotedRow row column other).basic =
      if other.basic = row.basic then column else other.basic := by
  unfold pivotedRow
  -- The pivot row is the one that takes the column over.
  split
  · rfl
  · exact other.basic_eliminate column _

/-- Every row after a pivot comes from one before. -/
theorem Canonical.mem_pivot (canonical : tableau.Canonical width)
    (found : tableau.rows[index]? = some row) {after : Row} :
    after ∈ (tableau.pivot index column).rows ↔
      ∃ other ∈ tableau.rows, pivotedRow row column other = after := by
  rw [canonical.pivot_rows found, List.mem_map]

/-- The pivot row gives up its basic column for the new one. -/
theorem Canonical.basics_pivot (canonical : tableau.Canonical width)
    (found : tableau.rows[index]? = some row) :
    (tableau.pivot index column).basics = insert column (tableau.basics.erase row.basic) := by
  have member : row ∈ tableau.rows := List.mem_of_getElem? found
  ext place
  simp only [Finset.mem_insert, Finset.mem_erase, mem_basics, canonical.mem_pivot found]
  constructor
  · -- A basic column after the pivot is the new one, or was that of another row.
    rintro ⟨after, ⟨other, otherMember, rfl⟩, same⟩
    rw [basic_pivotedRow] at same
    split at same
    · exact Or.inl same.symm
    · rename_i different
      exact Or.inr ⟨same ▸ different, other, otherMember, same⟩
  · -- Each of them still has its row.
    rintro (same | ⟨different, other, otherMember, same⟩)
    · refine ⟨_, ⟨row, member, rfl⟩, ?_⟩
      rw [basic_pivotedRow, if_pos rfl, same]
    · refine ⟨_, ⟨other, otherMember, rfl⟩, ?_⟩
      rw [basic_pivotedRow, if_neg (same ▸ different), same]

/-- No other row is solved for the new column, since the pivot row would not mention it then. -/
theorem Canonical.basic_ne (canonical : tableau.Canonical width)
    (found : tableau.rows[index]? = some row) (nonzero : row.entry column ≠ 0) {other : Row}
    (otherMember : other ∈ tableau.rows) (different : other.basic ≠ row.basic) :
    other.basic ≠ column := by
  -- A row that is basic in the column would leave no entry of it in the pivot row.
  intro same
  refine nonzero ?_
  rw [← same, canonical.alone row (List.mem_of_getElem? found) other otherMember different.symm]

/-- The new column is no other row's, so basic columns stay distinct. -/
theorem Canonical.distinct_pivot (canonical : tableau.Canonical width)
    (found : tableau.rows[index]? = some row) (nonzero : row.entry column ≠ 0) :
    ((tableau.pivot index column).rows.map (·.basic)).Nodup := by
  rw [canonical.pivot_rows found, List.map_map]
  refine List.Nodup.map_on ?_ (List.Nodup.of_map _ canonical.distinct)
  intro first firstMember second secondMember same
  simp only [Function.comp_apply, basic_pivotedRow] at same
  -- Rows that end up with one basic column had one before, so they are one row.
  refine canonical.row_unique firstMember secondMember ?_
  split at same <;> split at same
  · rename_i one two
    rw [one, two]
  · rename_i one two
    exact absurd same.symm (canonical.basic_ne found nonzero secondMember two)
  · rename_i one two
    exact absurd same (canonical.basic_ne found nonzero firstMember one)
  · exact same

/-- After a pivot each row has a one in its own basic column, and a zero in that of any other. -/
theorem Canonical.entry_basic_pivotedRow (canonical : tableau.Canonical width) {row : Row}
    (member : row ∈ tableau.rows) (nonzero : row.entry column ≠ 0) {other another : Row}
    (otherMember : other ∈ tableau.rows) (anotherMember : another ∈ tableau.rows) :
    (pivotedRow row column other).entry (pivotedRow row column another).basic =
      if other.basic = another.basic then 1 else 0 := by
  rw [canonical.entry_pivotedRow member column otherMember, basic_pivotedRow]
  by_cases second : another.basic = row.basic
  · -- In the new column the pivot row has been divided, and every other row has lost its entry.
    by_cases first : other.basic = row.basic
    · simp [first, second, div_self nonzero]
    · have different : other.basic ≠ another.basic := second ▸ first
      simp only [if_pos second, if_neg first, if_neg different, div_self nonzero]
      ring
  · -- The pivot row does not mention other basic columns, whose entries stay as they are.
    have absent := canonical.alone row member another anotherMember (Ne.symm second)
    by_cases first : other.basic = row.basic
    · have different : other.basic ≠ another.basic := fun same => second (same ▸ first)
      simp only [if_neg second, if_pos first, if_neg different, absent, zero_div]
    · by_cases same : other.basic = another.basic
      · rw [canonical.row_unique otherMember anotherMember same] at first ⊢
        simp only [if_neg second, absent, canonical.unit another anotherMember, if_true]
        ring
      · simp only [if_neg second, if_neg first, if_neg same, absent,
          canonical.alone other otherMember another anotherMember same]
        ring

/-- A pivot on a coefficient other than zero keeps a tableau canonical. -/
theorem Canonical.pivot (canonical : tableau.Canonical width)
    (found : tableau.rows[index]? = some row) (nonzero : row.entry column ≠ 0) :
    (tableau.pivot index column).Canonical width := by
  have member : row ∈ tableau.rows := List.mem_of_getElem? found
  have inside : column < width :=
    canonical.sized row member ▸ Row.lt_length_of_entry_ne_zero nonzero
  refine ⟨?_, ?_, canonical.distinct_pivot found nonzero, ?_, ?_⟩
  · -- No row changes its length.
    intro after afterMember
    obtain ⟨other, otherMember, rfl⟩ := (canonical.mem_pivot found).mp afterMember
    unfold pivotedRow
    split
    · rw [Row.length_solvedFor, canonical.sized row member]
    · rw [Row.length_eliminate, canonical.sized other otherMember]
      rw [Row.length_solvedFor, canonical.sized row member, canonical.sized other otherMember]
  · intro after afterMember
    obtain ⟨other, otherMember, rfl⟩ := (canonical.mem_pivot found).mp afterMember
    rw [basic_pivotedRow]
    split
    · exact inside
    · exact canonical.within other otherMember
  · intro after afterMember
    obtain ⟨other, otherMember, rfl⟩ := (canonical.mem_pivot found).mp afterMember
    rw [canonical.entry_basic_pivotedRow member nonzero otherMember otherMember, if_pos rfl]
  · intro after afterMember next nextMember different
    obtain ⟨other, otherMember, rfl⟩ := (canonical.mem_pivot found).mp afterMember
    obtain ⟨another, anotherMember, rfl⟩ := (canonical.mem_pivot found).mp nextMember
    rw [canonical.entry_basic_pivotedRow member nonzero otherMember anotherMember, if_neg]
    -- Rows with the same basic column were the same row, and would be so after the pivot.
    intro same
    exact different (by rw [canonical.row_unique otherMember anotherMember same])

/-- A pivot on a coefficient other than zero keeps the solutions of the equations. -/
theorem Canonical.solves_pivot_iff (canonical : tableau.Canonical width)
    (found : tableau.rows[index]? = some row) (nonzero : row.entry column ≠ 0) {x : Nat → Rat} :
    (tableau.pivot index column).Solves x ↔ tableau.Solves x := by
  have member : row ∈ tableau.rows := List.mem_of_getElem? found
  constructor
  · -- The pivot row can be multiplied again and added to the other rows again.
    intro solves
    have pivotRow : combine row.coefficients x = row.rhs := by
      have after := solves _ ((canonical.mem_pivot found).mpr ⟨row, member, rfl⟩)
      rw [canonical.combine_pivotedRow member column member, rhs_pivotedRow, if_pos rfl,
        if_pos rfl] at after
      field_simp at after
      exact after
    intro other otherMember
    have after := solves _ ((canonical.mem_pivot found).mpr ⟨other, otherMember, rfl⟩)
    rw [canonical.combine_pivotedRow member column otherMember, rhs_pivotedRow] at after
    by_cases same : other.basic = row.basic
    · rw [canonical.row_unique otherMember member same, pivotRow]
    · rw [if_neg same, if_neg same, pivotRow] at after
      linarith
  · -- Every new equation is made of old ones.
    intro solves after afterMember
    obtain ⟨other, otherMember, rfl⟩ := (canonical.mem_pivot found).mp afterMember
    rw [canonical.combine_pivotedRow member column otherMember, rhs_pivotedRow,
      solves row member, solves other otherMember]

/-- A pivot subtracts a multiple of the pivot row from the costs in every place. -/
theorem Canonical.getD_reduced_pivot (canonical : tableau.Canonical width)
    (priced : tableau.Priced width) (found : tableau.rows[index]? = some row) (column place : Nat) :
    (tableau.pivot index column).reduced.getD place 0 = tableau.reduced.getD place 0 -
      tableau.reduced.getD column 0 * (row.entry place / row.entry column) := by
  have member : row ∈ tableau.rows := List.mem_of_getElem? found
  -- Without a cost for the column, the multiple is that of zero.
  rw [pivot_reduced found]
  split
  · rename_i zero
    rw [zero, zero_mul, sub_zero]
  · rw [getD_subtractMultiple]
    · exact congrArg (_ - _ * ·) (row.entry_solvedFor column place)
    · rw [Row.length_solvedFor, priced.sized, canonical.sized row member]

/-- A pivot keeps the objective expressed by the columns that are not basic. -/
theorem Canonical.priced_pivot (canonical : tableau.Canonical width) (priced : tableau.Priced width)
    (found : tableau.rows[index]? = some row) (nonzero : row.entry column ≠ 0) :
    (tableau.pivot index column).Priced width := by
  have member : row ∈ tableau.rows := List.mem_of_getElem? found
  constructor
  · -- Costs stay as many as there are columns.
    rw [pivot_reduced found]
    split
    · exact priced.sized
    · rw [length_subtractMultiple, Row.length_solvedFor, priced.sized, canonical.sized row member,
        min_self]
  · intro after afterMember
    obtain ⟨other, otherMember, rfl⟩ := (canonical.mem_pivot found).mp afterMember
    -- The new column loses its cost; the pivot row has none for the other basic ones.
    rw [canonical.getD_reduced_pivot priced found, basic_pivotedRow]
    by_cases same : other.basic = row.basic
    · rw [if_pos same, div_self nonzero]
      ring
    · rw [if_neg same, priced.free other otherMember,
        canonical.alone row member other otherMember (Ne.symm same)]
      ring

/-- A pivot keeps the cost of every solution. -/
theorem Canonical.cost_pivot (canonical : tableau.Canonical width) (priced : tableau.Priced width)
    (found : tableau.rows[index]? = some row) {x : Nat → Rat} (solves : tableau.Solves x) :
    (tableau.pivot index column).cost x = tableau.cost x := by
  have member : row ∈ tableau.rows := List.mem_of_getElem? found
  -- What the costs lose, the value gains, since the pivot row holds.
  have sum : combine (tableau.pivot index column).reduced x = combine tableau.reduced x -
      tableau.reduced.getD column 0 * (row.rhs / row.entry column) := by
    rw [pivot_reduced found]
    split
    · rename_i zero
      rw [zero, zero_mul, sub_zero]
    · rw [combine_subtractMultiple, row.combine_solvedFor, solves row member]
      rw [Row.length_solvedFor, priced.sized, canonical.sized row member]
  rw [cost, cost, pivot_value found, sum]
  ring

end Pivot

/-- Leaving out rows keeps a tableau canonical. -/
theorem Canonical.of_sublist (canonical : tableau.Canonical width) {other : Tableau}
    (part : other.rows.Sublist tableau.rows) : other.Canonical width where
  sized row member := canonical.sized row (part.subset member)
  within row member := canonical.within row (part.subset member)
  distinct := canonical.distinct.sublist (part.map _)
  unit row member := canonical.unit row (part.subset member)
  alone row member another anotherMember :=
    canonical.alone row (part.subset member) another (part.subset anotherMember)

/-- Pricing one row leaves the rows alone. -/
@[simp] theorem rows_priceRow (costs : List Rat) (tableau : Tableau) (row : Row) :
    (priceRow costs tableau row).rows = tableau.rows := by
  simp only [priceRow]
  split <;> rfl

/-- Pricing a row subtracts a multiple of it in every place. -/
theorem getD_priceRow (costs : List Rat) {row : Row}
    (same : tableau.reduced.length = row.coefficients.length) (place : Nat) :
    (priceRow costs tableau row).reduced.getD place 0 =
      tableau.reduced.getD place 0 - costs.getD row.basic 0 * row.entry place := by
  -- A row whose basic column costs nothing is skipped.
  simp only [priceRow]
  split
  · rename_i zero
    rw [zero, zero_mul, sub_zero]
  · exact getD_subtractMultiple same place

/-- Pricing one row keeps the number of reduced costs. -/
theorem length_priceRow (costs : List Rat) {row : Row}
    (same : tableau.reduced.length = row.coefficients.length) :
    (priceRow costs tableau row).reduced.length = tableau.reduced.length := by
  simp only [priceRow]
  -- Only a row whose basic column costs something is subtracted.
  split
  · rfl
  · rw [length_subtractMultiple, ← same, min_self]

/-- Pricing a row keeps the cost of columns for which its equation holds. -/
theorem cost_priceRow (costs : List Rat) {row : Row}
    (same : tableau.reduced.length = row.coefficients.length) {x : Nat → Rat}
    (holds : combine row.coefficients x = row.rhs) :
    (priceRow costs tableau row).cost x = tableau.cost x := by
  -- The costs lose a multiple of the row, and the value gains as much.
  simp only [priceRow, cost]
  split
  · rfl
  · simp only [combine_subtractMultiple same, holds]
    ring

/-- Pricing rows one after the other takes the costs of their basic columns away and keeps the
cost of every solution. -/
private theorem foldl_priceRow (costs : List Rat) (rows : List Row) (pivots : Nat)
    (canonical : Canonical width ⟨rows, [], 0, pivots⟩) (start : Tableau)
    (sized : start.reduced.length = width) :
    let final := rows.foldl (priceRow costs) start
    final.rows = start.rows ∧ final.reduced.length = width ∧
      (∀ x, (∀ row ∈ rows, combine row.coefficients x = row.rhs) → final.cost x = start.cost x) ∧
      (∀ place, (∀ row ∈ rows, row.entry place = 0) →
        final.reduced.getD place 0 = start.reduced.getD place 0) ∧
      ∀ row ∈ rows, final.reduced.getD row.basic 0 =
        start.reduced.getD row.basic 0 - costs.getD row.basic 0 := by
  -- A basic column is priced by its own row and left alone by all the others.
  induction rows generalizing start with
  | nil => simp [sized]
  | cons head tail ih =>
    have same : start.reduced.length = head.coefficients.length :=
      sized.trans (canonical.sized head (by simp)).symm
    obtain ⟨rows, length, costs_, free, priced⟩ :=
      ih (canonical.of_sublist (List.sublist_cons_self _ _)) (priceRow costs start head)
        ((length_priceRow costs same).trans sized)
    refine ⟨rows.trans (rows_priceRow costs start head), length, ?_, ?_, ?_⟩
    · -- What the first row changes of the cost it takes out of the value as well.
      intro x holds
      rw [List.foldl_cons, costs_ x fun row member => holds row (List.mem_cons_of_mem _ member),
        cost_priceRow costs same (holds head (by simp))]
    · -- A place in which no row has an entry keeps its cost.
      intro place absent
      rw [List.foldl_cons, free place fun row member => absent row (List.mem_cons_of_mem _ member),
        getD_priceRow costs same, absent head (by simp), mul_zero, sub_zero]
    · have others : ∀ row ∈ tail, row.basic ≠ head.basic := by
        intro row member equal
        have distinct := canonical.distinct
        simp only [List.map_cons, List.nodup_cons, List.mem_map, not_exists, not_and] at distinct
        exact distinct.1 row member equal
      intro row member
      rw [List.foldl_cons]
      rcases List.mem_cons.mp member with rfl | inTail
      · rw [free row.basic fun other otherMember =>
            canonical.alone other (List.mem_cons_of_mem _ otherMember) row (by simp)
              (others other otherMember),
          getD_priceRow costs same, canonical.unit row (by simp), mul_one]
      · rw [priced row inTail, getD_priceRow costs same,
          canonical.alone head (by simp) row member (others row inTail).symm, mul_zero, sub_zero]

section Price

variable {costs : List Rat}

/-- Pricing a tableau leaves its rows alone. -/
@[simp] theorem rows_price (tableau : Tableau) (costs : List Rat) :
    (tableau.price costs).rows = tableau.rows := by
  -- The induction is on the rows that are still to be priced.
  unfold price
  generalize tableau.rows = rows
  suffices general : ∀ start : Tableau, (rows.foldl (priceRow costs) start).rows = start.rows from
    general _
  intro start
  induction rows generalizing start with
  | nil => rfl
  | cons head tail ih => rw [List.foldl_cons, ih, rows_priceRow]

/-- Prices leave the equations alone, so a priced tableau is canonical when the tableau is. -/
theorem Canonical.price (canonical : tableau.Canonical width) (costs : List Rat) :
    (tableau.price costs).Canonical width :=
  canonical.of_sublist (by rw [rows_price])

/-- Prices express the objective by the columns that are not basic. -/
theorem Canonical.priced_price (canonical : tableau.Canonical width)
    (sized : costs.length = width) : (tableau.price costs).Priced width := by
  -- Each basic column starts with its own cost, which pricing takes away.
  obtain ⟨_, length, _, _, priced⟩ := foldl_priceRow costs tableau.rows 0
    (canonical.of_sublist (List.Sublist.refl _)) { tableau with reduced := costs, value := 0 } sized
  refine ⟨length, fun row member => ?_⟩
  rw [rows_price] at member
  exact (priced row member).trans (sub_self _)

/-- Prices give every solution the cost that the costs of its columns add up to. -/
theorem Canonical.cost_price (canonical : tableau.Canonical width) (sized : costs.length = width)
    {x : Nat → Rat} (solves : tableau.Solves x) :
    (tableau.price costs).cost x = combine costs x := by
  -- At first the cost is what the costs add up to, and pricing keeps it.
  obtain ⟨_, _, same, _⟩ := foldl_priceRow costs tableau.rows 0
    (canonical.of_sublist (List.Sublist.refl _)) { tableau with reduced := costs, value := 0 } sized
  exact (same x solves).trans (zero_add _)

end Price

end CycleSchedule.Tableau
