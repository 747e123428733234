import CycleSchedule.Proofs.Linear.Strict.Solver
import Mathlib.Data.List.InsertIdx

/-! Evicting artificial columns row by row: the loop ends, only rows that say nothing are dropped,
and the right-hand sides of the others stay as they are. -/

namespace CycleSchedule

namespace Tableau

variable {width bound index : Nat} {tableau final : Tableau} {dropped : List (Nat × Row)}

/-- The eviction of columns from an index of the rows on, with no limit on the number of turns. It
goes along with the rows that are dropped and the index that each of them has at that time. -/
inductive Evicts (bound : Nat) : Nat → Tableau → List (Nat × Row) → Tableau → Prop
  | done {index : Nat} {tableau : Tableau} (ended : tableau.rows.length ≤ index) :
      Evicts bound index tableau [] tableau
  | pass {index : Nat} {tableau final : Tableau} {row : Row} {dropped : List (Nat × Row)}
      (found : tableau.rows[index]? = some row) (low : row.basic < bound)
      (rest : Evicts bound (index + 1) tableau dropped final) :
      Evicts bound index tableau dropped final
  | drop {index : Nat} {tableau final : Tableau} {row : Row} {dropped : List (Nat × Row)}
      (found : tableau.rows[index]? = some row) (beyond : bound ≤ row.basic)
      (nothing : firstNonzero row bound = none)
      (rest : Evicts bound index { tableau with rows := tableau.rows.eraseIdx index } dropped
        final) :
      Evicts bound index tableau ((index, row) :: dropped) final
  | pivot {index column : Nat} {tableau final : Tableau} {row : Row} {dropped : List (Nat × Row)}
      (found : tableau.rows[index]? = some row) (beyond : bound ≤ row.basic)
      (chosen : firstNonzero row bound = some column)
      (rest : Evicts bound (index + 1) (tableau.pivot index column) dropped final) :
      Evicts bound index tableau dropped final

/-- A pivot keeps the number of rows. -/
theorem length_rows_pivot (tableau : Tableau) (index column : Nat) :
    (tableau.pivot index column).rows.length = tableau.rows.length := by
  unfold Tableau.pivot
  -- A pivot rewrites the rows in place.
  split
  · rfl
  · simp

/-- As long as the index is that of a row, enough fuel for the rows from there on lasts for one more
turn. -/
theorem exists_fuel {fuel : Nat} {row : Row} (found : tableau.rows[index]? = some row)
    (enough : tableau.rows.length ≤ index + fuel) :
    ∃ less, fuel = less + 1 ∧ tableau.rows.length ≤ index + 1 + less := by
  have within := (List.getElem?_eq_some_iff.mp found).1
  exact ⟨fuel - 1, by omega, by omega⟩

/-- The rows from the index on are one less when the first of them is dropped. -/
theorem length_eraseIdx_le {fuel : Nat} {row : Row} (found : tableau.rows[index]? = some row)
    (enough : tableau.rows.length ≤ index + 1 + fuel) :
    (tableau.rows.eraseIdx index).length ≤ index + fuel := by
  have within := (List.getElem?_eq_some_iff.mp found).1
  rw [List.length_eraseIdx_of_lt within]
  omega

/-- Each turn passes a row or drops one, so the eviction ends within as many turns as there are rows
from the index on. -/
theorem exists_evicts : ∀ fuel index (tableau : Tableau), tableau.rows.length ≤ index + fuel →
    ∃ dropped, Evicts bound index tableau dropped (evictFrom bound fuel index tableau) := by
  -- Each turn moves on by a row or leaves one row less, so fuel for all rows is enough.
  intro fuel
  induction fuel with
  | zero =>
    intro index tableau enough
    exact ⟨[], .done enough⟩
  | succ fuel ih =>
    intro index tableau granted
    have enough : tableau.rows.length ≤ index + 1 + fuel := by omega
    unfold evictFrom
    cases found : tableau.rows[index]? with
    | none => exact ⟨[], .done (List.getElem?_eq_none_iff.mp found)⟩
    | some row =>
      by_cases low : row.basic < bound
      · -- A row with a real basic column is passed.
        obtain ⟨dropped, rest⟩ := ih (index + 1) tableau enough
        simp only [if_pos low]
        exact ⟨dropped, .pass found low rest⟩
      · simp only [if_neg low]
        cases chosen : firstNonzero row bound with
        | none =>
          -- The index stays, but one row less is left.
          obtain ⟨dropped, rest⟩ := ih index { tableau with rows := tableau.rows.eraseIdx index }
            (length_eraseIdx_le found enough)
          exact ⟨_, .drop found (not_lt.mp low) chosen rest⟩
        | some column =>
          -- A pivot changes rows, but not how many there are.
          obtain ⟨dropped, rest⟩ := ih (index + 1) (tableau.pivot index column)
            (by rwa [length_rows_pivot])
          exact ⟨dropped, .pivot found (not_lt.mp low) chosen rest⟩

/-- Turns beyond those that the eviction takes change nothing. -/
theorem Evicts.evictFrom_eq (evicts : Evicts bound index tableau dropped final) :
    ∀ {fuel : Nat}, tableau.rows.length ≤ index + fuel →
      evictFrom bound fuel index tableau = final := by
  -- The induction is on the turns; as long as a row is found there is fuel for one more.
  induction evicts with
  | done ended =>
    intro fuel _
    cases fuel with
    | zero => rfl
    | succ fuel => rw [evictFrom, List.getElem?_eq_none ended]
  | pass found low _ ih =>
    intro fuel granted
    obtain ⟨less, rfl, enough⟩ := exists_fuel found granted
    simp only [evictFrom, found, if_pos low]
    exact ih enough
  | drop found beyond nothing _ ih =>
    intro fuel granted
    obtain ⟨less, rfl, enough⟩ := exists_fuel found granted
    simp only [evictFrom, found, if_neg (not_lt.mpr beyond), nothing]
    exact ih (length_eraseIdx_le found enough)
  | pivot found beyond chosen _ ih =>
    intro fuel granted
    obtain ⟨less, rfl, enough⟩ := exists_fuel found granted
    simp only [evictFrom, found, if_neg (not_lt.mpr beyond), chosen]
    exact ih (by rwa [length_rows_pivot])

/-- Every row that is dropped reads zero equals zero below the bound. -/
theorem Evicts.dropped_empty (evicts : Evicts bound index tableau dropped final)
    (evictable : tableau.Evictable width bound) :
    ∀ entry ∈ dropped, entry.2.rhs = 0 ∧ ∀ column < bound, entry.2.entry column = 0 := by
  -- Every turn keeps the values of the columns beyond the bound at zero.
  induction evicts with
  | done _ => simp
  | pass _ _ _ ih => exact ih evictable
  | drop found beyond nothing _ ih =>
    -- The row is empty, and its right-hand side is the value of a column beyond the bound.
    have empty := firstNonzero_none nothing
    have zero := evictable.zero _ (List.mem_of_getElem? found) beyond
    exact List.forall_mem_cons.mpr ⟨⟨zero, empty⟩, ih (evictable.drop found beyond empty).1⟩
  | pivot found beyond chosen _ ih =>
    obtain ⟨below, nonzero⟩ := firstNonzero_some chosen
    exact ih (evictable.pivot found beyond below nonzero).1

/-- A pivot on a row of value zero leaves the list of right-hand sides as it is. -/
theorem Evictable.map_rhs_pivot (evictable : tableau.Evictable width bound) {row : Row}
    (found : tableau.rows[index]? = some row) (beyond : bound ≤ row.basic) (column : Nat) :
    (tableau.pivot index column).rows.map (·.rhs) = tableau.rows.map (·.rhs) := by
  have member := List.mem_of_getElem? found
  rw [evictable.canonical.pivot_rows found, List.map_map]
  -- The right-hand side of the pivot row is zero, so no multiple of it changes anything.
  refine List.map_congr_left fun other otherMember => ?_
  exact evictable.canonical.rhs_pivotedRow_of_zero member otherMember
    (evictable.zero row member beyond) column

/-- The right-hand sides in the end are those of the start without those of the dropped rows. -/
theorem Evicts.map_rhs (evicts : Evicts bound index tableau dropped final)
    (evictable : tableau.Evictable width bound) : final.rows.map (·.rhs) =
      dropped.foldl (fun left entry => left.eraseIdx entry.1) (tableau.rows.map (·.rhs)) := by
  induction evicts with
  | done _ => rfl
  | pass _ _ _ ih => exact ih evictable
  -- Dropping a row drops its right-hand side at the same index.
  | drop found beyond nothing _ ih =>
    rw [ih (evictable.drop found beyond (firstNonzero_none nothing)).1, List.foldl_cons,
      List.eraseIdx_map]
  | pivot found beyond chosen _ ih =>
    -- A pivot on a row that is zero to the right keeps all right-hand sides.
    obtain ⟨below, nonzero⟩ := firstNonzero_some chosen
    rw [ih (evictable.pivot found beyond below nonzero).1, evictable.map_rhs_pivot found beyond]

end Tableau

open Tableau

/-- Once the first phase has ended with an optimum of zero, the eviction of artificial columns ends
and leaves none of them in the basis. All that it drops are rows that read zero equals zero on the
real columns; the other rows keep their right-hand sides and are canonical, and they have the same
solutions without artificial columns as before. The loop over the shrinking lists makes no slip and
comes to the same, however many turns it is granted. -/
theorem eviction_is_lossless {program : LinearProgram}
    (optimum :
      (LinearProgram.firstPhase program.columns program.startingTableau).tableau.value = 0) :
    let width := program.columns.width
    let real := program.columns.real
    let reached := (LinearProgram.firstPhase program.columns program.startingTableau).tableau
    let evicted := reached.evict real
    ∃ dropped, Evicts real 0 reached dropped evicted ∧
      (∀ entry ∈ dropped, entry.2.rhs = 0 ∧ ∀ column < real, entry.2.entry column = 0) ∧
      evicted.rows.map (·.rhs) =
        dropped.foldl (fun left entry => left.eraseIdx entry.1) (reached.rows.map (·.rhs)) ∧
      (∀ row ∈ evicted.rows, row.basic < real) ∧ evicted.Canonical width ∧ evicted.Feasible ∧
      (∀ x, (∀ column < width, real ≤ column → x column = 0) →
        (evicted.Solves x ↔ reached.Solves x)) ∧
      ∀ fuel, reached.rows.length ≤ fuel →
        Strict.evictFrom (Strict.marks width fun column => real ≤ column) fuel 0 reached.sheet =
          .ok evicted.sheet := by
  intro width real reached evicted
  -- With the optimum at zero all artificial columns are zero.
  have evictable : reached.Evictable width real :=
    LinearProgram.evictable_firstPhase optimum.le
  obtain ⟨after, same, low⟩ := evictable.evict
  obtain ⟨dropped, evicts⟩ : ∃ dropped, Evicts real 0 reached dropped evicted :=
    exists_evicts reached.rows.length 0 reached (by omega)
  refine ⟨dropped, evicts, evicts.dropped_empty evictable, evicts.map_rhs evictable, low,
    after.canonical, after.feasible, same, fun fuel enough => ?_⟩
  -- More turns than rows do not change the outcome.
  have settled : evictFrom real fuel 0 reached = evicted := evicts.evictFrom_eq (by omega)
  rw [← settled]
  exact Strict.evictFrom_ok fuel 0 reached evictable
    (LinearProgram.ends_firstPhase program).proper.priced.sized

/-- An equation, twice the same one, and one that is settled by the first phase with a value of zero
for its artificial column. -/
def LinearProgram.collinear : LinearProgram :=
  { unknowns := ["x", "y"]
    constraints :=
      [⟨[("x", 1), ("y", 1)], .equal, 2, ""⟩, ⟨[("x", 2), ("y", 2)], .equal, 4, ""⟩,
        ⟨[("x", 1), ("y", -1)], .equal, 2, ""⟩]
    objective := [] }

/-- The second equation is dropped, and the last one is solved for the second variable by a pivot on
a negative coefficient. -/
theorem collinear_eviction_is_lossless :
    let program := LinearProgram.collinear
    let reached := (LinearProgram.firstPhase program.columns program.startingTableau).tableau
    let evicted := reached.evict 2
    reached.value = 0 ∧ reached.rows.map (·.basic) = [0, 3, 4] ∧
      evicted.rows.map (·.basic) = [0, 1] ∧
      ∃ dropped, Evicts 2 0 reached dropped evicted ∧
        (∀ entry ∈ dropped, entry.2.rhs = 0 ∧ ∀ column < 2, entry.2.entry column = 0) ∧
        evicted.rows.map (·.rhs) =
          dropped.foldl (fun left entry => left.eraseIdx entry.1) (reached.rows.map (·.rhs)) ∧
        (∀ row ∈ evicted.rows, row.basic < 2) ∧ evicted.Canonical 5 ∧ evicted.Feasible ∧
        (∀ x, (∀ column < 5, 2 ≤ column → x column = 0) →
          (evicted.Solves x ↔ reached.Solves x)) ∧
        ∀ fuel, reached.rows.length ≤ fuel →
          Strict.evictFrom (Strict.marks 5 fun column => 2 ≤ column) fuel 0 reached.sheet =
            .ok evicted.sheet := by
  intro program reached evicted
  have optimum : reached.value = 0 := by decide +kernel
  exact ⟨optimum, by decide +kernel, by decide +kernel, eviction_is_lossless optimum⟩

end CycleSchedule
