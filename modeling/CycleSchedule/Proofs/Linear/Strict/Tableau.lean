import CycleSchedule.Proofs.Linear.Strict.Lookup
import CycleSchedule.Proofs.Linear.Progress
import CycleSchedule.Proofs.Linear.Eviction
import Mathlib.Data.List.Find

/-! Tableaux as lists that are read and changed place by place: on the tableaux that come up no
look-up fails, and every step does what it does on whole rows. -/

namespace CycleSchedule

/-- A tableau with the coefficients, right-hand sides and basic columns of its rows in separate
lists. -/
structure Sheet where
  rows : List (List Rat)
  rhs : List Rat
  basis : List Nat
  reduced : List Rat
  value : Rat
  pivots : Nat
deriving DecidableEq, Repr

/-- A tableau taken apart into lists. -/
def Tableau.sheet (tableau : Tableau) : Sheet where
  rows := tableau.rows.map (·.coefficients)
  rhs := tableau.rows.map (·.rhs)
  basis := tableau.rows.map (·.basic)
  reduced := tableau.reduced
  value := tableau.value
  pivots := tableau.pivots

namespace Strict

/-- The objective with one basic column expressed by the others. -/
def priceRow (costs : List Rat) (sheet : Sheet) (row : List Rat × Rat × Nat) :
    Except Slip Sheet := do
  -- The cost of the basic column decides whether the row has any part in the costs.
  let cost ← item costs row.2.2
  if cost = 0 then return sheet
  else do
    let both ← pairs sheet.reduced row.1
    return { sheet with
      reduced := both.map fun pair => pair.1 - cost * pair.2
      value := sheet.value + cost * row.2.1 }

/-- The objective with the given cost of each column, expressed by the columns that are not basic.
-/
def price (costs : List Rat) (sheet : Sheet) : Except Slip Sheet := do
  let ends ← pairs sheet.rhs sheet.basis
  let rows ← pairs sheet.rows ends
  rows.foldlM (priceRow costs) { sheet with reduced := costs, value := 0 }

/-- Numbers less a multiple of those that entries give for some of the places. -/
def lessMultiple (factor : Rat) (entries : List (Nat × Rat)) (numbers : List Rat) :
    Except Slip (List Rat) :=
  if factor = 0 then .ok numbers
  else changed (fun old number => old - factor * number) entries numbers

/-- A row and its right-hand side once the pivot column has been removed from them. -/
def eliminate (index column : Nat) (entries : List (Nat × Rat)) (pivotRhs : Rat)
    (rhs : List Rat) (row : List Rat × Nat) : Except Slip (List Rat × Rat) := do
  -- Both look-ups are made before the row is told apart from the pivot row.
  let factor ← item row.1 column
  let old ← item rhs row.2
  if row.2 = index then return (row.1, old)
  else do
    let rest ← lessMultiple factor entries row.1
    return (rest, old - factor * pivotRhs)

/-- The entries of a row divided by a number. -/
def dividedEntries (divisor : Rat) (row : List Rat) : Except Slip (List (Nat × Rat)) :=
  (nonzeroEntries 0 row).mapM fun entry => do
    let ratio ← quotient entry.2 divisor
    return (entry.1, ratio)

/-- Makes a column basic in a row. -/
def pivot (index column : Nat) (sheet : Sheet) : Except Slip Sheet := do
  let row ← item sheet.rows index
  let divisor ← item row column
  -- The nonzero entries of the pivot row are found once, for all other rows.
  let entries ← dividedEntries divisor row
  let pivotRow ← changed (fun _ number => number) entries row
  let rows ← replaced sheet.rows index pivotRow
  let oldRhs ← item sheet.rhs index
  let pivotRhs ← quotient oldRhs divisor
  let rhs ← replaced sheet.rhs index pivotRhs
  -- The other rows are cleared with the divided row already in its place.
  let rest ← rows.zipIdx.mapM (eliminate index column entries pivotRhs rhs)
  let factor ← item sheet.reduced column
  let reduced ← lessMultiple factor entries sheet.reduced
  let basis ← replaced sheet.basis index column
  return {
    rows := rest.map (·.1)
    rhs := rest.map (·.2)
    basis
    reduced
    value := sheet.value + factor * pivotRhs
    pivots := sheet.pivots + 1 }

/-- The first allowed column that improves the objective. -/
def enteringColumn (allowed : List Bool) (sheet : Sheet) : Except Slip (Option Nat) := do
  let found ← sheet.reduced.zipIdx.findM? fun entry => do
    let isAllowed ← item allowed entry.2
    return isAllowed && entry.1 < 0
  return found.map (·.2)

/-- The tightest bound so far, as the index of its row and the ratio there, after one more row. -/
def tighten (column : Nat) (sheet : Sheet) (best : Option (Nat × Rat)) (row : List Rat × Nat) :
    Except Slip (Option (Nat × Rat)) := do
  let entry ← item row.1 column
  -- A row that does not bound the column is passed over before anything is divided.
  if entry ≤ 0 then return best
  else do
    let rhs ← item sheet.rhs row.2
    let ratio ← quotient rhs entry
    match best with
    | none => return some (row.2, ratio)
    | some (held, heldRatio) =>
      let basic ← item sheet.basis row.2
      let heldBasic ← item sheet.basis held
      -- Of equal ratios the row with the lower basic column goes.
      return if ratio < heldRatio ∨ ratio = heldRatio ∧ basic < heldBasic then some (row.2, ratio)
        else best

/-- The row that bounds the growth of a column most. -/
def leavingRow (column : Nat) (sheet : Sheet) : Except Slip (Option Nat) := do
  let best ← sheet.rows.zipIdx.foldlM (tighten column sheet) none
  return best.map (·.1)

/-- Pivots on the first improving column and its tightest row until nothing improves, or nothing
bounds the improvement, or the fuel is used up. -/
def optimize (allowed : List Bool) : Nat → Sheet → Except Slip (Halt × Sheet)
  | 0, sheet => return (.unfinished, sheet)
  | fuel + 1, sheet => do
    match ← enteringColumn allowed sheet with
    | none => return (.optimal, sheet)
    | some column =>
      match ← leavingRow column sheet with
      | none => return (.unbounded, sheet)
      | some index =>
        -- The message about the pivot names the column that leaves.
        let _leaving ← item sheet.basis index
        let next ← pivot index column sheet
        optimize allowed fuel next

/-- The first column with a coefficient other than zero that is not artificial. -/
def firstReal (artificial : List Bool) (row : List Rat) : Except Slip (Option Nat) := do
  let found ← row.zipIdx.findM? fun entry =>
    -- A zero is passed over without a look at its column.
    if entry.1 = 0 then return false
    else do
      let isArtificial ← item artificial entry.2
      return !isArtificial
  return found.map (·.2)

/-- The sheet without the row at an index. -/
def dropRow (index : Nat) (sheet : Sheet) : Except Slip Sheet := do
  let rows ← removed sheet.rows index
  let rhs ← removed sheet.rhs index
  let basis ← removed sheet.basis index
  return { sheet with rows, rhs, basis }

/-- Makes a column that is not artificial basic in each row from an index on, or drops the row. -/
def evictFrom (artificial : List Bool) : Nat → Nat → Sheet → Except Slip Sheet
  | 0, _, sheet => return sheet
  | fuel + 1, index, sheet =>
    if index < sheet.basis.length then do
      let basic ← item sheet.basis index
      let isArtificial ← item artificial basic
      -- Rows that are basic in a real column stay as they are.
      if isArtificial then do
        let row ← item sheet.rows index
        match ← firstReal artificial row with
        | none =>
          let next ← dropRow index sheet
          evictFrom artificial fuel index next
        | some column =>
          let next ← pivot index column sheet
          evictFrom artificial fuel (index + 1) next
      else evictFrom artificial fuel (index + 1) sheet
    else return sheet

open Tableau

variable {width bound : Nat} {tableau : Tableau} {allowed : Nat → Bool} {costs : List Rat}
  {column index : Nat} {row : Row}

/-- A mark for each column that says whether it is of some kind. -/
def marks (width : Nat) (kind : Nat → Bool) : List Bool := (List.range width).map kind

/-- The marks of columns say of each column whether it is of the kind. -/
theorem item_marks {kind : Nat → Bool} (within : column < width) :
    item (marks width kind) column = .ok (kind column) :=
  item_of_getElem? (by simp [marks, within])

/-- Prices are found without a slip. -/
theorem price_ok (canonical : tableau.Canonical width) (sized : costs.length = width) :
    price costs tableau.sheet = .ok (tableau.price costs).sheet := by
  -- The three lists of a sheet are of one length, since they come from the same rows.
  have ends : pairs tableau.sheet.rhs tableau.sheet.basis =
      .ok (tableau.rows.map fun row => (row.rhs, row.basic)) := by
    rw [pairs_ok (by simp [Tableau.sheet]), Tableau.sheet, List.zip_map']
  have rows : pairs tableau.sheet.rows (tableau.rows.map fun row => (row.rhs, row.basic)) =
      .ok (tableau.rows.map fun row => (row.coefficients, row.rhs, row.basic)) := by
    rw [pairs_ok (by simp [Tableau.sheet]), Tableau.sheet, List.zip_map']
  rw [price, ends, ok_bind, rows, ok_bind, List.foldlM_map]
  -- All rows are as long as the costs, and these stay so.
  refine foldlM_ok Tableau.sheet (fun state => state.reduced.length = width)
    { tableau with reduced := costs, value := 0 } sized fun row member state good => ?_
  have same : state.reduced.length = row.coefficients.length :=
    good.trans (canonical.sized row member).symm
  refine ⟨?_, (length_priceRow costs same).trans good⟩
  have cost : item costs row.basic = .ok (costs.getD row.basic 0) :=
    item_eq_getD (sized ▸ canonical.within row member)
  rw [priceRow, cost, ok_bind, Tableau.priceRow]
  split
  · rfl
  · have both : pairs state.sheet.reduced row.coefficients =
        .ok (state.reduced.zip row.coefficients) := pairs_ok same
    have less : (state.reduced.zip row.coefficients).map
        (fun pair => pair.1 - costs.getD row.basic 0 * pair.2) =
          subtractMultiple (costs.getD row.basic 0) state.reduced row.coefficients := by
      rw [subtractMultiple, ← List.map_uncurry_zip_eq_zipWith]
      -- Subtracting a multiple of zero changes nothing.
      refine List.map_congr_left fun pair _ => ?_
      by_cases zero : pair.2 = 0 <;> simp [Function.uncurry, zero]
    rw [both, ok_bind, less]
    rfl

/-- The entries of a row divided by a number are those of the divided row. -/
theorem dividedEntries_ok {divisor : Rat} (nonzero : divisor ≠ 0) (numbers : List Rat) :
    dividedEntries divisor numbers = .ok (nonzeroEntries 0 (numbers.map (· / divisor))) := by
  rw [dividedEntries, mapM_ok fun entry => (entry.1, entry.2 / divisor)]
  · -- A quotient is zero just where the number is.
    simp only [nonzeroEntries, List.zipIdx_map, List.filter_map, List.map_map]
    refine congrArg Except.ok ?_
    have same : (fun entry : Rat × Nat => decide (entry.1 ≠ 0)) =
        (fun entry => decide (entry.1 ≠ 0)) ∘ Prod.map (· / divisor) id := by
      funext entry
      simp [nonzero]
    rw [← same]
    rfl
  · intro entry _
    rw [quotient_ok nonzero]
    rfl

/-- Where the entries of a divided row are put into the row itself, it is divided. -/
theorem changed_divided {divisor : Rat} (nonzero : divisor ≠ 0) (numbers : List Rat) :
    changed (fun _ number => number) (nonzeroEntries 0 (numbers.map (· / divisor))) numbers =
      .ok (numbers.map (· / divisor)) := by
  rw [changed_ok _ (by simp), List.zipWith_map_right, List.zipWith_self]
  refine congrArg Except.ok (List.map_congr_left fun number _ => ?_)
  -- A number whose quotient is zero is zero itself.
  split
  · rename_i zero
    rcases div_eq_zero_iff.mp zero with zero | zero
    · simp [zero]
    · exact absurd zero nonzero
  · rfl

/-- A multiple of a row is subtracted entry by entry. -/
theorem lessMultiple_ok (factor : Rat) {numbers row : List Rat}
    (same : row.length = numbers.length) :
    lessMultiple factor (nonzeroEntries 0 numbers) row =
      .ok (if factor = 0 then row else subtractMultiple factor row numbers) := by
  unfold lessMultiple
  -- A factor of zero leaves the row as it is, so its entries are not gone through.
  split
  · rfl
  · exact changed_ok _ same

/-- What becomes of the row at a place when a column is made basic in another one. -/
theorem eliminate_ok {pivotRow : Row} {rhs : List Rat} {place : Nat}
    (sized : row.coefficients.length = pivotRow.coefficients.length)
    (within : column < row.coefficients.length) (located : rhs[place]? = some row.rhs) :
    eliminate index column (nonzeroEntries 0 pivotRow.coefficients) pivotRow.rhs rhs
        (row.coefficients, place) =
      .ok (if place = index then (row.coefficients, row.rhs)
        else ((row.eliminate column pivotRow).coefficients,
          (row.eliminate column pivotRow).rhs)) := by
  rw [eliminate, item_eq_getD within, ok_bind, item_of_getElem? located, ok_bind]
  split
  · rfl
  · rw [lessMultiple_ok _ sized, ok_bind, Row.rhs_eliminate, Row.eliminate, Row.entry]
    -- Without the column the row is left as it is, and else a multiple is subtracted.
    split
    · rfl
    · rfl

/-- What a pivot leaves at each place. -/
theorem getElem?_rows_pivot (found : tableau.rows[index]? = some row) (column place : Nat) :
    (tableau.pivot index column).rows[place]? = tableau.rows[place]?.map fun other =>
      if place = index then row.solvedFor column
      else other.eliminate column (row.solvedFor column) := by
  simp [Tableau.pivot, found]

/-- Removing the pivot column from all rows but the pivot row, which has been divided before, leaves
the rows of the pivoted tableau. -/
theorem eliminate_all_ok (sized : ∀ row ∈ tableau.rows, row.coefficients.length = width)
    (found : tableau.rows[index]? = some row) (within : column < width) :
    ((tableau.rows.set index (row.solvedFor column)).map (·.coefficients)).zipIdx.mapM
      (eliminate index column (nonzeroEntries 0 (row.solvedFor column).coefficients)
        (row.solvedFor column).rhs
        ((tableau.rows.set index (row.solvedFor column)).map (·.rhs))) =
      .ok ((tableau.pivot index column).rows.map fun row => (row.coefficients, row.rhs)) := by
  set pivotRow := row.solvedFor column with solved
  -- The divided row is as long as any other, so entries can be subtracted one by one.
  have pivotSized : pivotRow.coefficients.length = width := by
    rw [solved, Row.length_solvedFor, sized row (List.mem_of_getElem? found)]
  have setSized : ∀ other ∈ tableau.rows.set index pivotRow,
      other.coefficients.length = width := fun other member =>
    (List.mem_or_eq_of_mem_set member).elim (sized other) fun same => same ▸ pivotSized
  rw [List.zipIdx_map, List.mapM_map, mapM_ok fun entry =>
    if entry.2 = index then (entry.1.coefficients, entry.1.rhs)
    else ((entry.1.eliminate column pivotRow).coefficients,
      (entry.1.eliminate column pivotRow).rhs)]
  · -- At each place stands what a pivot leaves there.
    refine congrArg Except.ok (List.ext_getElem? fun place => ?_)
    simp only [List.getElem?_map, getElem?_rows_pivot found, List.getElem?_zipIdx, Nat.zero_add,
      Option.map_map]
    by_cases same : place = index
    · subst same
      have inside := (List.getElem?_eq_some_iff.mp found).1
      simp [inside, solved]
    · rw [List.getElem?_set_ne (Ne.symm same)]
      simp [same, Function.comp_def, solved]
  · -- At every other place the row and its right-hand side are found.
    intro entry member
    have located := List.mem_zipIdx_iff_getElem?.mp member
    have length := setSized entry.1 (List.mem_of_getElem? located)
    have rhs : ((tableau.rows.set index pivotRow).map (·.rhs))[entry.2]? = some entry.1.rhs := by
      rw [List.getElem?_map, located]
      rfl
    exact eliminate_ok (length.trans pivotSized.symm) (length ▸ within) rhs

/-- A pivot on a coefficient other than zero is made without a slip. -/
theorem pivot_ok (sized : ∀ row ∈ tableau.rows, row.coefficients.length = width)
    (reduced : tableau.reduced.length = width) (found : tableau.rows[index]? = some row)
    (nonzero : row.entry column ≠ 0) :
    pivot index column tableau.sheet = .ok (tableau.pivot index column).sheet := by
  have rowSized := sized row (List.mem_of_getElem? found)
  have within : column < width := rowSized ▸ Row.lt_length_of_entry_ne_zero nonzero
  have indexWithin := (List.getElem?_eq_some_iff.mp found).1
  -- The pivot row is divided in the place where it stands.
  have coefficients : item tableau.sheet.rows index = .ok row.coefficients :=
    item_of_getElem? (by simp [Tableau.sheet, found])
  have divisor : item row.coefficients column = .ok (row.entry column) :=
    item_eq_getD (rowSized ▸ within)
  have rhs : item tableau.sheet.rhs index = .ok row.rhs :=
    item_of_getElem? (by simp [Tableau.sheet, found])
  have rowsSet : replaced tableau.sheet.rows index (row.solvedFor column).coefficients =
      .ok ((tableau.rows.set index (row.solvedFor column)).map (·.coefficients)) := by
    rw [replaced_ok (by simpa [Tableau.sheet] using indexWithin), Tableau.sheet, List.map_set]
  have rhsSet : replaced tableau.sheet.rhs index (row.solvedFor column).rhs =
      .ok ((tableau.rows.set index (row.solvedFor column)).map (·.rhs)) := by
    rw [replaced_ok (by simpa [Tableau.sheet] using indexWithin), Tableau.sheet, List.map_set]
  -- The column leaves the objective as it leaves the other rows.
  have factor : item tableau.sheet.reduced column = .ok (tableau.reduced.getD column 0) :=
    item_eq_getD (reduced.symm ▸ within)
  have objective : lessMultiple (tableau.reduced.getD column 0)
      (nonzeroEntries 0 (row.solvedFor column).coefficients) tableau.sheet.reduced =
        .ok (tableau.pivot index column).reduced := by
    have same : tableau.reduced.length = (row.solvedFor column).coefficients.length := by
      rw [Row.length_solvedFor, reduced, rowSized]
    rw [pivot_reduced found]
    exact lessMultiple_ok _ same
  -- The new column is basic in the pivot row and nowhere else.
  have basis : replaced tableau.sheet.basis index column =
      .ok ((tableau.pivot index column).rows.map (·.basic)) := by
    rw [replaced_ok (by simpa [Tableau.sheet] using indexWithin)]
    refine congrArg Except.ok (List.ext_getElem? fun place => ?_)
    rw [List.getElem?_map, getElem?_rows_pivot found, Option.map_map]
    by_cases same : place = index
    · subst same
      simp [Tableau.sheet, indexWithin, Row.solvedFor]
    · rw [List.getElem?_set_ne (Ne.symm same)]
      simp [Tableau.sheet, same, Function.comp_def]
  have entries : dividedEntries (row.entry column) row.coefficients =
      .ok (nonzeroEntries 0 (row.solvedFor column).coefficients) := dividedEntries_ok nonzero _
  have divided : changed (fun _ number => number)
      (nonzeroEntries 0 (row.solvedFor column).coefficients) row.coefficients =
        .ok (row.solvedFor column).coefficients := changed_divided nonzero _
  have pivotRhs : quotient row.rhs (row.entry column) = .ok (row.solvedFor column).rhs :=
    quotient_ok nonzero _
  have eliminated := eliminate_all_ok sized found within
  -- No step fails, and what they leave is the same sheet.
  simp only [pivot, coefficients, divisor, entries, divided, rowsSet, rhs, pivotRhs, rhsSet,
    eliminated, factor, objective, basis, ok_bind, pure_eq_ok, List.map_map]
  refine congrArg Except.ok ?_
  simp only [Tableau.sheet, pivot_value found, Function.comp_def, Sheet.mk.injEq, true_and]
  exact ⟨rfl, by simp [Tableau.pivot, found]⟩

/-- The entering column is found without a slip. -/
theorem enteringColumn_ok (sized : tableau.reduced.length = width) :
    enteringColumn (marks width allowed) tableau.sheet = .ok (tableau.enteringColumn allowed) := by
  -- Every column of the tableau has a mark, so no look-up of the search fails.
  have found : (tableau.reduced.zipIdx.findM? fun entry => do
        let isAllowed ← item (marks width allowed) entry.2
        return isAllowed && entry.1 < 0) =
      .ok (tableau.reduced.zipIdx.find? fun entry => allowed entry.2 && entry.1 < 0) :=
    findM?_ok _ fun entry member => by
      have within := (List.getElem?_eq_some_iff.mp (List.mem_zipIdx_iff_getElem?.mp member)).1
      rw [item_marks (sized ▸ within), ok_bind]
      rfl
  rw [enteringColumn, show tableau.sheet.reduced = tableau.reduced from rfl, found, ok_bind]
  rfl

/-- One more row tightens the best bound as it does when the bound is kept with its column. -/
theorem tighten_ok {place : Nat} {best : Option Bound} (located : tableau.rows[place]? = some row)
    (within : column < row.coefficients.length)
    (held : ∀ bound, best = some bound → tableau.sheet.basis[bound.index]? = some bound.basic) :
    tighten column tableau.sheet (best.map fun bound => (bound.index, bound.ratio))
        (row.coefficients, place) =
      .ok ((tightest best (boundOf? column row place)).map fun bound =>
        (bound.index, bound.ratio)) := by
  have entry := item_eq_getD within
  have rhs : item tableau.sheet.rhs place = .ok row.rhs :=
    item_of_getElem? (by simp [Tableau.sheet, located])
  have basic : item tableau.sheet.basis place = .ok row.basic :=
    item_of_getElem? (by simp [Tableau.sheet, located])
  rw [tighten, entry, ok_bind, boundOf?, Row.entry]
  by_cases small : row.coefficients.getD column 0 ≤ 0
  · -- A row without a positive entry sets no bound.
    simp only [if_pos small, if_neg (not_lt.mpr small)]
    cases best <;> rfl
  · -- Otherwise its ratio is compared with the bound so far, whose row is found again.
    have positive := not_le.mp small
    simp only [if_neg small, if_pos positive, rhs, quotient_ok positive.ne', ok_bind]
    cases best with
    | none => rfl
    | some bound =>
      simp only [Option.map_some, basic, item_of_getElem? (held bound rfl), ok_bind, tightest,
        Bound.tighter, Bool.or_eq_true, Bool.and_eq_true, decide_eq_true_eq]
      split
      · rfl
      · rfl

/-- The tightest bound belongs to the row at its index. -/
theorem tightest_held {place : Nat} {best : Option Bound}
    (located : tableau.rows[place]? = some row)
    (held : ∀ bound, best = some bound → tableau.sheet.basis[bound.index]? = some bound.basic) :
    ∀ bound, tightest best (boundOf? column row place) = some bound →
      tableau.sheet.basis[bound.index]? = some bound.basic := by
  intro bound chosen
  rcases tightest_eq best (boundOf? column row place) with same | same
  · exact held bound (same.symm.trans chosen)
  · -- The bound of the row itself carries its own index and column.
    rw [same, boundOf?] at chosen
    split at chosen
    · cases chosen
      simp [Tableau.sheet, located]
    · cases chosen

/-- The leaving row is found without a slip. -/
theorem leavingRow_ok (sized : ∀ row ∈ tableau.rows, row.coefficients.length = width)
    (within : column < width) :
    leavingRow column tableau.sheet = .ok (tableau.leavingRow column) := by
  have rows : tableau.sheet.rows.zipIdx = tableau.rows.zipIdx.map (Prod.map (·.coefficients) id) :=
    List.zipIdx_map
  -- The rows are gone through in order, with the tightest bound so far.
  have folded : tableau.sheet.rows.zipIdx.foldlM (tighten column tableau.sheet) none =
      .ok ((tableau.rows.zipIdx.foldl (fun best entry =>
        tightest best (boundOf? column entry.1 entry.2)) none).map fun bound =>
          (bound.index, bound.ratio)) := by
    rw [rows, List.foldlM_map]
    refine foldlM_ok (fun best : Option Bound => best.map fun bound => (bound.index, bound.ratio))
      (fun best => ∀ bound, best = some bound →
        tableau.sheet.basis[bound.index]? = some bound.basic) none (by simp)
      fun entry member best held => ?_
    have located := List.mem_zipIdx_iff_getElem?.mp member
    have length := sized entry.1 (List.mem_of_getElem? located)
    exact ⟨tighten_ok located (length ▸ within) held, tightest_held located held⟩
  rw [leavingRow, folded, ok_bind, Tableau.leavingRow, pure_eq_ok, Option.map_map]
  rfl

/-- A series of pivots from a proper tableau is made without a slip. -/
theorem optimize_ok (allowed : Nat → Bool) : ∀ fuel (tableau : Tableau), tableau.Proper width →
    optimize (marks width allowed) fuel tableau.sheet =
      .ok ((tableau.optimize allowed fuel).halt,
        (tableau.optimize allowed fuel).tableau.sheet) := by
  -- The induction is on the fuel, since each pivot leads to a proper tableau again.
  intro fuel
  induction fuel with
  | zero =>
    intro tableau proper
    rfl
  | succ fuel ih =>
    intro tableau proper
    have canonical := proper.canonical
    rw [optimize, enteringColumn_ok proper.priced.sized, ok_bind, Tableau.optimize]
    -- Both stop where no column may enter, or where none may leave.
    cases entering : tableau.enteringColumn allowed with
    | none => rfl
    | some column =>
      have within : column < width := proper.priced.sized ▸ (enteringColumn_some entering).1
      simp only [leavingRow_ok canonical.sized within, ok_bind]
      cases leaving : tableau.leavingRow column with
      | none => rfl
      | some index =>
        -- Otherwise both pivot on the same entry and go on.
        obtain ⟨row, found, positive, _⟩ := leavingRow_some leaving
        obtain ⟨_, step⟩ := Step.of_choices entering leaving
        have basic : item tableau.sheet.basis index = .ok row.basic :=
          item_of_getElem? (by simp [Tableau.sheet, found])
        simp only [basic, ok_bind, pivot_ok canonical.sized proper.priced.sized found positive.ne',
          ih _ (step.proper proper)]

/-- A search among the first items of a list looks at their places or cuts the list off. -/
theorem find?_zipIdx_take (asks : Rat → Bool) (bound : Nat) (items : List Rat) :
    items.zipIdx.find? (fun entry => asks entry.1 && !decide (bound ≤ entry.2)) =
      (items.take bound).zipIdx.find? fun entry => asks entry.1 := by
  have behind : ((items.drop bound).zipIdx (0 + (items.take bound).length)).find?
      (fun entry => asks entry.1 && !decide (bound ≤ entry.2)) = none := by
    -- What comes after the cut stands at the bound or later.
    refine List.find?_eq_none.mpr fun entry member => ?_
    obtain ⟨low, high, -⟩ := List.mem_zipIdx member
    have late : bound ≤ entry.2 := by
      simp only [List.length_take, List.length_drop] at low high
      omega
    simp [late]
  conv_lhs => rw [← List.take_append_drop bound items, List.zipIdx_append, List.find?_append,
    behind, Option.or_none]
  -- In front of the cut the bound asks for nothing.
  refine List.find?_congr fun entry member => ?_
  have early := (List.mem_zipIdx member).2.1
  have below : entry.2 < bound := by
    simp only [List.length_take] at early
    omega
  simp [not_le.mpr below]

/-- The first column to put into the basis is found without a slip. -/
theorem firstReal_ok (sized : row.coefficients.length = width) :
    firstReal (marks width fun column => bound ≤ column) row.coefficients =
      .ok (firstNonzero row bound) := by
  -- The search only asks for marks of columns within the row.
  have found : (row.coefficients.zipIdx.findM? fun entry =>
        if entry.1 = 0 then return false
        else do
          let isArtificial ← item (marks width fun column => bound ≤ column) entry.2
          return !isArtificial) =
      .ok (row.coefficients.zipIdx.find? fun entry =>
        entry.1 ≠ 0 && !decide (bound ≤ entry.2)) :=
    findM?_ok _ fun entry member => by
      have within := (List.getElem?_eq_some_iff.mp (List.mem_zipIdx_iff_getElem?.mp member)).1
      by_cases zero : entry.1 = 0
      · simp [zero]
      · simp [zero, item_marks (sized ▸ within)]
  rw [firstReal, found, ok_bind, firstNonzero,
    find?_zipIdx_take (fun coefficient => coefficient ≠ 0)]
  rfl

/-- A row is dropped without a slip. -/
theorem dropRow_ok (within : index < tableau.rows.length) :
    dropRow index tableau.sheet =
      .ok ({ tableau with rows := tableau.rows.eraseIdx index } : Tableau).sheet := by
  -- Rows, right-hand sides and basis lose the same place one after the other.
  have rows : removed tableau.sheet.rows index =
      .ok ((tableau.rows.eraseIdx index).map (·.coefficients)) := by
    rw [removed_ok (by simpa [Tableau.sheet] using within), Tableau.sheet, List.eraseIdx_map]
  have rhs : removed tableau.sheet.rhs index = .ok ((tableau.rows.eraseIdx index).map (·.rhs)) := by
    rw [removed_ok (by simpa [Tableau.sheet] using within), Tableau.sheet, List.eraseIdx_map]
  have basis : removed tableau.sheet.basis index =
      .ok ((tableau.rows.eraseIdx index).map (·.basic)) := by
    rw [removed_ok (by simpa [Tableau.sheet] using within), Tableau.sheet, List.eraseIdx_map]
  rw [dropRow, rows, ok_bind, rhs, ok_bind, basis, ok_bind]
  rfl

/-- A pivot keeps the number of columns of the objective. -/
theorem length_reduced_pivot (sized : ∀ row ∈ tableau.rows, row.coefficients.length = width)
    (reduced : tableau.reduced.length = width) (found : tableau.rows[index]? = some row)
    (column : Nat) : (tableau.pivot index column).reduced.length = width := by
  rw [pivot_reduced found]
  -- The reduced costs stay as they are or lose a multiple of a row of their length.
  split
  · exact reduced
  · rw [length_subtractMultiple, Row.length_solvedFor, reduced,
      sized row (List.mem_of_getElem? found), min_self]

/-- Artificial columns are evicted without a slip. -/
theorem evictFrom_ok : ∀ fuel index (tableau : Tableau), tableau.Evictable width bound →
    tableau.reduced.length = width →
    evictFrom (marks width fun column => bound ≤ column) fuel index tableau.sheet =
      .ok (Tableau.evictFrom bound fuel index tableau).sheet := by
  -- The induction is on the fuel: each step passes a row or drops one.
  intro fuel
  induction fuel with
  | zero =>
    intro index tableau evictable reduced
    rfl
  | succ fuel ih =>
    intro index tableau evictable reduced
    have canonical := evictable.canonical
    unfold evictFrom Tableau.evictFrom
    -- Past the last row both stop.
    cases found : tableau.rows[index]? with
    | none =>
      have ended : ¬ index < tableau.sheet.basis.length := by
        simpa [Tableau.sheet] using List.getElem?_eq_none_iff.mp found
      rw [if_neg ended]
      rfl
    | some row =>
      have member := List.mem_of_getElem? found
      have within := (List.getElem?_eq_some_iff.mp found).1
      have inside : index < tableau.sheet.basis.length := by simpa [Tableau.sheet] using within
      have basic : item tableau.sheet.basis index = .ok row.basic :=
        item_of_getElem? (by simp [Tableau.sheet, found])
      have coefficients : item tableau.sheet.rows index = .ok row.coefficients :=
        item_of_getElem? (by simp [Tableau.sheet, found])
      rw [if_pos inside, basic, ok_bind, item_marks (canonical.within row member), ok_bind]
      -- A row that is basic in a real column is passed.
      by_cases low : row.basic < bound
      · simpa [low, not_le.mpr low] using ih (index + 1) tableau evictable reduced
      · simp only [if_neg low, decide_eq_true (not_lt.mp low), if_true, coefficients, ok_bind,
          firstReal_ok (canonical.sized row member)]
        -- Otherwise it is dropped if it is empty, and pivoted if it is not.
        cases chosen : firstNonzero row bound with
        | none =>
          have dropped := (evictable.drop found (not_lt.mp low) (firstNonzero_none chosen)).1
          simpa only [dropRow_ok within, ok_bind] using ih index _ dropped reduced
        | some column =>
          obtain ⟨below, nonzero⟩ := firstNonzero_some chosen
          have pivoted := (evictable.pivot found (not_lt.mp low) below nonzero).1
          simpa only [pivot_ok canonical.sized reduced found nonzero, ok_bind] using
            ih (index + 1) _ pivoted (length_reduced_pivot canonical.sized reduced found column)

end Strict

end CycleSchedule
