import CycleSchedule.Journal.Event

/-! Simplex tableaux: equations solved for one basic column each, and the pivots between them. -/

namespace CycleSchedule

/-- An equation, the sum of coefficients times columns being the right-hand side, that is solved for
its basic column. -/
structure Row where
  coefficients : List Rat
  rhs : Rat
  basic : Nat
deriving DecidableEq, Repr

namespace Row

/-- The coefficient of a column. -/
def entry (row : Row) (column : Nat) : Rat := row.coefficients.getD column 0

/-- The equation divided by the coefficient of a column, which becomes the basic one. -/
def solvedFor (row : Row) (column : Nat) : Row :=
  let divisor := row.entry column
  ⟨row.coefficients.map (· / divisor), row.rhs / divisor, column⟩

end Row

/-- A list of numbers less a multiple of another. -/
def subtractMultiple (factor : Rat) (minuend subtrahend : List Rat) : List Rat :=
  -- Where there is nothing to subtract the number stays as it is.
  List.zipWith (fun a b => if b = 0 then a else a - factor * b) minuend subtrahend

/-- The equation with a column removed by subtracting a multiple of an equation solved for it. -/
def Row.eliminate (row : Row) (column : Nat) (pivotRow : Row) : Row :=
  let factor := row.entry column
  if factor = 0 then row
  -- A row in which the column does not occur is not touched.
  else
    { row with
      coefficients := subtractMultiple factor row.coefficients pivotRow.coefficients
      rhs := row.rhs - factor * pivotRow.rhs }

/-- Equations and an objective, `value` plus the sum of `reduced` times columns, with the number of
pivots made so far. -/
structure Tableau where
  rows : List Row
  reduced : List Rat
  value : Rat
  pivots : Nat
deriving DecidableEq, Repr

/-- How a series of pivots ended. -/
inductive Halt where
  | optimal
  | unbounded
  | unfinished
deriving DecidableEq, Repr

namespace Tableau

/-- The objective with one basic column expressed by the others. -/
def priceRow (costs : List Rat) (tableau : Tableau) (row : Row) : Tableau :=
  -- The row is solved for its basic column, so subtracting it leaves that column without a cost.
  let cost := costs.getD row.basic 0
  if cost = 0 then tableau
  else
    { tableau with
      reduced := subtractMultiple cost tableau.reduced row.coefficients
      value := tableau.value + cost * row.rhs }

/-- The objective with the given cost of each column, expressed by the columns that are not basic.
-/
def price (tableau : Tableau) (costs : List Rat) : Tableau :=
  -- The costs come in as they are; each row then takes its basic column out of them.
  tableau.rows.foldl (priceRow costs) { tableau with reduced := costs, value := 0 }

/-- Makes a column basic in a row. -/
def pivot (tableau : Tableau) (index column : Nat) : Tableau :=
  match tableau.rows[index]? with
  | none => tableau
  | some row =>
    -- All other rows are cleared with the row as it is after the division.
    let pivotRow := row.solvedFor column
    let factor := tableau.reduced.getD column 0
    { rows := tableau.rows.mapIdx fun i other =>
        if i = index then pivotRow else other.eliminate column pivotRow
      reduced :=
        if factor = 0 then tableau.reduced
        else subtractMultiple factor tableau.reduced pivotRow.coefficients
      value := tableau.value + factor * pivotRow.rhs
      pivots := tableau.pivots + 1 }

/-- The first allowed column that improves the objective. -/
def enteringColumn (tableau : Tableau) (allowed : Nat → Bool) : Option Nat :=
  -- Taking the first one keeps a series of pivots from coming back to the same basic columns.
  (tableau.reduced.zipIdx.find? fun entry => allowed entry.2 && entry.1 < 0).map (·.2)

/-- A row that bounds the growth of a column. -/
structure Bound where
  index : Nat
  ratio : Rat
  basic : Nat

/-- Whether a bound is tighter than another; ties go to the lower basic column. -/
def Bound.tighter (a b : Bound) : Bool :=
  a.ratio < b.ratio || (a.ratio = b.ratio && a.basic < b.basic)

/-- The bound that a row sets on a column in which its coefficient is positive. -/
def boundOf? (column : Nat) (row : Row) (index : Nat) : Option Bound :=
  -- Only a positive coefficient bounds the column, any other lets it grow for ever.
  let entry := row.entry column
  if 0 < entry then some ⟨index, row.rhs / entry, row.basic⟩ else none

/-- The tightest of two bounds, the first one if neither is tighter. -/
def tightest (best next : Option Bound) : Option Bound :=
  match best, next with
  | none, next => next
  | best, none => best
  | some a, some b => if b.tighter a then some b else some a

/-- The row that bounds the growth of a column most. -/
def leavingRow (tableau : Tableau) (column : Nat) : Option Nat :=
  -- The rows are gone through in order, and of equal bounds the first is kept.
  (tableau.rows.zipIdx.foldl (fun best entry => tightest best (boundOf? column entry.1 entry.2))
    none).map (·.index)

/-- The basic column of a row. -/
def basicOf (tableau : Tableau) (index : Nat) : Nat := ((tableau.rows[index]?).map (·.basic)).getD 0

/-- The end of a series of pivots. -/
structure Optimized where
  halt : Halt
  tableau : Tableau
  events : List Event

/-- Pivots on the first improving column and its tightest row until nothing improves, or nothing
bounds the improvement, or the fuel is used up. -/
def optimize (allowed : Nat → Bool) : Nat → Tableau → Optimized
  | 0, tableau => ⟨.unfinished, tableau, []⟩
  | fuel + 1, tableau =>
    match tableau.enteringColumn allowed with
    | none => ⟨.optimal, tableau, []⟩
    | some column =>
      match tableau.leavingRow column with
      | none => ⟨.unbounded, tableau, []⟩
      | some index =>
        -- The message tells of the tableau before the pivot.
        let event := Event.pivoting tableau.pivots column (tableau.basicOf index) tableau.value
        let rest := optimize allowed fuel (tableau.pivot index column)
        { rest with events := event :: rest.events }

/-- The first column below a bound with a coefficient other than zero. -/
def firstNonzero (row : Row) (bound : Nat) : Option Nat :=
  ((row.coefficients.take bound).zipIdx.find? fun entry => entry.1 ≠ 0).map (·.2)

/-- Makes a column below a bound basic in each row from an index on; a row without such a column
says nothing about the columns below the bound and is dropped. -/
def evictFrom (bound : Nat) : Nat → Nat → Tableau → Tableau
  | 0, _, tableau => tableau
  | fuel + 1, index, tableau =>
    match tableau.rows[index]? with
    | none => tableau
    | some row =>
      if row.basic < bound then evictFrom bound fuel (index + 1) tableau
      else
        match firstNonzero row bound with
        -- The row after a dropped one moves up to the same index.
        | none => evictFrom bound fuel index { tableau with rows := tableau.rows.eraseIdx index }
        | some column => evictFrom bound fuel (index + 1) (tableau.pivot index column)

/-- The tableau without basic columns from a bound on. -/
def evict (tableau : Tableau) (bound : Nat) : Tableau :=
  -- Each round goes on to the next row or drops one, so as many rounds as rows are enough.
  evictFrom bound tableau.rows.length 0 tableau

/-- The value of a column when all columns that are not basic are zero. -/
def columnValue (tableau : Tableau) (column : Nat) : Rat :=
  -- A column that is basic nowhere has the value zero.
  ((tableau.rows.find? (·.basic = column)).map (·.rhs)).getD 0

end Tableau

end CycleSchedule
