import CycleSchedule.Proofs.Linear.Pivot

/-! Removing columns beyond a bound from the basis loses no solution in which they are zero. -/

namespace CycleSchedule.Tableau

variable {width bound : Nat} {tableau : Tableau}

/-- The column found in a row lies below the bound and has a coefficient. -/
theorem firstNonzero_some {row : Row} {column : Nat}
    (found : firstNonzero row bound = some column) :
    column < bound ∧ row.entry column ≠ 0 := by
  -- What is found is a coefficient of the front part, together with its place.
  unfold firstNonzero at found
  obtain ⟨⟨coefficient, place⟩, located, same⟩ := Option.map_eq_some_iff.mp found
  have place_ : place = column := same
  subst place_
  have nonzero : coefficient ≠ 0 := by simpa using List.find?_some located
  have at_ := List.mem_zipIdx_iff_getElem?.mp (List.mem_of_find?_eq_some located)
  rw [List.getElem?_take] at at_
  split at at_
  · rename_i below
    exact ⟨below, by simpa [Row.entry, List.getD_eq_getElem?_getD, at_] using nonzero⟩
  · -- From the bound on nothing is left of the row.
    simp at at_

/-- If no column is found in a row, it has no coefficient below the bound. -/
theorem firstNonzero_none {row : Row} (nothing : firstNonzero row bound = none) :
    ∀ column < bound, row.entry column = 0 := by
  -- Every column below the bound was looked at, and those beyond the row are zero anyway.
  intro column below
  unfold firstNonzero at nothing
  have absent := List.find?_eq_none.mp (Option.map_eq_none_iff.mp nothing)
  by_cases within : column < row.coefficients.length
  · have zero := absent (row.coefficients[column], column)
      (List.mem_zipIdx_iff_getElem?.mpr (by simp [below, within]))
    rw [Row.entry, List.getD_eq_getElem _ _ within]
    simpa using zero
  · exact List.getD_eq_default _ _ (not_lt.mp within)

/-- A basis to evict columns from: those from the bound on have the value zero. -/
structure Evictable (width bound : Nat) (tableau : Tableau) : Prop where
  canonical : tableau.Canonical width
  feasible : tableau.Feasible
  zero : ∀ row ∈ tableau.rows, bound ≤ row.basic → row.rhs = 0

/-- Two tableaux have the same solutions among the columns below a bound. -/
def SameBelow (width bound : Nat) (tableau next : Tableau) : Prop :=
  ∀ x : Nat → Rat, (∀ column < width, bound ≤ column → x column = 0) →
    (next.Solves x ↔ tableau.Solves x)

/-- A row without columns below the bound says nothing about them and can be dropped. -/
theorem Evictable.drop (evictable : tableau.Evictable width bound) {index : Nat} {row : Row}
    (found : tableau.rows[index]? = some row) (beyond : bound ≤ row.basic)
    (empty : ∀ column < bound, row.entry column = 0) :
    let next := { tableau with rows := tableau.rows.eraseIdx index }
    next.Evictable width bound ∧ SameBelow width bound tableau next := by
  have member : row ∈ tableau.rows := List.mem_of_getElem? found
  have part := tableau.rows.eraseIdx_sublist index
  -- Fewer rows are still canonical, and only the dropped one has to be shown to hold.
  refine ⟨⟨evictable.canonical.of_sublist part,
    fun other otherMember => evictable.feasible other (part.subset otherMember),
    fun other otherMember => evictable.zero other (part.subset otherMember)⟩, ?_⟩
  intro x below
  refine ⟨fun solves other otherMember => ?_, fun solves other otherMember =>
    solves other (part.subset otherMember)⟩
  obtain ⟨place, located⟩ := List.mem_iff_getElem?.mp otherMember
  by_cases same : place = index
  · -- The dropped row reads zero equals zero.
    subst same
    have equal : other = row := by simpa [found] using located.symm
    subst equal
    rw [evictable.zero other member beyond]
    refine combine_eq_zero fun column within => ?_
    rcases Nat.lt_or_ge column bound with low | high
    · exact mul_eq_zero_of_left (empty column low) _
    · rw [below column (evictable.canonical.sized other member ▸ within) high, mul_zero]
  · -- Every other row is still there.
    refine solves other (List.mem_eraseIdx_iff_getElem?.mpr ⟨place, same, located⟩)

/-- A pivot on a row of right-hand side zero changes no right-hand side. -/
theorem Canonical.rhs_pivotedRow_of_zero (canonical : tableau.Canonical width) {row other : Row}
    (member : row ∈ tableau.rows) (otherMember : other ∈ tableau.rows) (zero : row.rhs = 0)
    (column : Nat) : (pivotedRow row column other).rhs = other.rhs := by
  -- A multiple of zero is subtracted, and the row itself is divided.
  rw [rhs_pivotedRow, zero, zero_div, mul_zero, sub_zero]
  split
  · rename_i same
    rw [canonical.row_unique otherMember member same, zero]
  · rfl

/-- A column below the bound takes the place of one beyond it, whatever the sign of its
coefficient. -/
theorem Evictable.pivot (evictable : tableau.Evictable width bound) {index column : Nat} {row : Row}
    (found : tableau.rows[index]? = some row) (beyond : bound ≤ row.basic) (below : column < bound)
    (nonzero : row.entry column ≠ 0) :
    (tableau.pivot index column).Evictable width bound ∧
      SameBelow width bound tableau (tableau.pivot index column) := by
  have member : row ∈ tableau.rows := List.mem_of_getElem? found
  have canonical := evictable.canonical
  have zero := evictable.zero row member beyond
  refine ⟨⟨canonical.pivot found nonzero, ?_, ?_⟩,
    fun x _ => canonical.solves_pivot_iff found nonzero⟩
  · intro after afterMember
    obtain ⟨other, otherMember, rfl⟩ := (canonical.mem_pivot found).mp afterMember
    -- The right-hand sides are the old ones, and none of these is negative.
    rw [canonical.rhs_pivotedRow_of_zero member otherMember zero]
    exact evictable.feasible other otherMember
  · intro after afterMember high
    obtain ⟨other, otherMember, rfl⟩ := (canonical.mem_pivot found).mp afterMember
    rw [canonical.rhs_pivotedRow_of_zero member otherMember zero]
    -- A row that is still solved for a column beyond the bound was so before.
    rw [basic_pivotedRow] at high
    split at high
    · omega
    · exact evictable.zero other otherMember high

/-- All rows before an index are solved for columns below the bound. -/
def Cleared (bound index : Nat) (tableau : Tableau) : Prop :=
  ∀ place < index, ∀ row, tableau.rows[place]? = some row → row.basic < bound

/-- Once the index has passed the last row, all rows are solved for columns below the bound. -/
theorem Cleared.basic_lt {index : Nat} (cleared : Cleared bound index tableau)
    (ended : tableau.rows.length ≤ index) : ∀ row ∈ tableau.rows, row.basic < bound := by
  intro row member
  -- Every row has a place, and all places have been cleared.
  obtain ⟨place, located⟩ := List.mem_iff_getElem?.mp member
  have within := (List.getElem?_eq_some_iff.mp located).1
  exact cleared place (by omega) row located

/-- A row that is solved for a column below the bound is passed. -/
theorem Cleared.pass {index : Nat} {row : Row} (cleared : Cleared bound index tableau)
    (found : tableau.rows[index]? = some row) (low : row.basic < bound) :
    Cleared bound (index + 1) tableau := by
  -- The row that is passed is the one new row before the index.
  intro place before other located
  rcases Nat.lt_succ_iff_lt_or_eq.mp before with earlier | same
  · exact cleared place earlier other located
  · have equal : row = other := by simpa [same, found] using located
    exact equal ▸ low

/-- The rows before the index stay where they are when the one at the index is dropped. -/
theorem Cleared.drop {index : Nat} (cleared : Cleared bound index tableau) :
    Cleared bound index { tableau with rows := tableau.rows.eraseIdx index } := by
  intro place before other located
  exact cleared place before other (by simpa [List.getElem?_eraseIdx_of_lt before] using located)

/-- A pivot to a column below the bound clears the row at the index. -/
theorem Cleared.pivot {index column : Nat} {row : Row} (cleared : Cleared bound index tableau)
    (canonical : tableau.Canonical width) (found : tableau.rows[index]? = some row)
    (below : column < bound) : Cleared bound (index + 1) (tableau.pivot index column) := by
  intro place before other located
  rw [canonical.pivot_rows found, List.getElem?_map] at located
  obtain ⟨old, oldLocated, rfl⟩ := Option.map_eq_some_iff.mp located
  rw [basic_pivotedRow]
  split
  -- The pivot row has the entering column for its basic one.
  · exact below
  · rename_i different
    rcases Nat.lt_succ_iff_lt_or_eq.mp before with earlier | same
    · exact cleared place earlier old oldLocated
    · -- The row at the index is the pivot row.
      have equal : row = old := by simpa [same, found] using oldLocated
      exact absurd (congrArg Row.basic equal.symm) different

/-- Eviction from an index on, once all rows before it are solved for columns below the bound. -/
private theorem evictFrom_spec : ∀ fuel index (tableau : Tableau),
    tableau.Evictable width bound → tableau.rows.length ≤ index + fuel →
    Cleared bound index tableau →
    let final := evictFrom bound fuel index tableau
    final.Evictable width bound ∧ SameBelow width bound tableau final ∧
      ∀ row ∈ final.rows, row.basic < bound := by
  -- The induction is on the fuel: each step passes a row or drops one.
  intro fuel
  induction fuel with
  | zero =>
    intro index tableau evictable enough cleared
    exact ⟨evictable, fun _ _ => Iff.rfl, cleared.basic_lt enough⟩
  | succ fuel ih =>
    intro index tableau evictable enough cleared
    unfold evictFrom
    cases found : tableau.rows[index]? with
    | none =>
      have ended := List.getElem?_eq_none_iff.mp found
      exact ⟨evictable, fun _ _ => Iff.rfl, cleared.basic_lt ended⟩
    | some row =>
      have within := (List.getElem?_eq_some_iff.mp found).1
      by_cases low : row.basic < bound
      · simp only [if_pos low]
        exact ih (index + 1) tableau evictable (by omega) (cleared.pass found low)
      · simp only [if_neg low]
        cases chosen : firstNonzero row bound with
        | none =>
          -- A row without columns below the bound is dropped, and the next one takes its place.
          obtain ⟨dropped, same⟩ :=
            evictable.drop found (not_lt.mp low) (firstNonzero_none chosen)
          obtain ⟨final, sameRest, finished⟩ := ih index _ dropped
            (by simp only [List.length_eraseIdx_of_lt within]; omega) cleared.drop
          exact ⟨final, fun x below => (sameRest x below).trans (same x below), finished⟩
        | some column =>
          -- Else the row is solved for a column below the bound, and then passed.
          obtain ⟨below, nonzero⟩ := firstNonzero_some chosen
          obtain ⟨pivoted, same⟩ := evictable.pivot found (not_lt.mp low) below nonzero
          obtain ⟨final, sameRest, finished⟩ := ih (index + 1) _ pivoted
            (by simp only [evictable.canonical.pivot_rows found column, List.length_map]; omega)
            (cleared.pivot evictable.canonical found below)
          exact ⟨final, fun x zero => (sameRest x zero).trans (same x zero), finished⟩

/-- Eviction leaves no basic column beyond the bound and loses no solution below it. -/
theorem Evictable.evict (evictable : tableau.Evictable width bound) :
    (tableau.evict bound).Evictable width bound ∧
      SameBelow width bound tableau (tableau.evict bound) ∧
      ∀ row ∈ (tableau.evict bound).rows, row.basic < bound :=
  evictFrom_spec _ 0 tableau evictable (by omega) (fun _ before => by omega)

end CycleSchedule.Tableau
