import CycleSchedule.Proofs.Linear.Progress
import CycleSchedule.Proofs.Linear.Program

/-! The starting tableau of a program: canonical and feasible, with the feasible points of the
program as those solutions in which no column is negative and all artificial ones are zero. -/

namespace CycleSchedule

section Rank

variable {α : Type} {marked : α → Bool} {items : List α} {first second : Nat} {item : α}

/-- How many marked items come before a place. -/
def rank (marked : α → Bool) (items : List α) (place : Nat) : Nat :=
  (items.take place).countP marked

/-- The further on in the list, the more marked items lie before. -/
theorem rank_mono (ordered : first ≤ second) : rank marked items first ≤ rank marked items second :=
  List.Sublist.countP_le (List.take_sublist_take_left ordered)

/-- A marked item raises the rank of what follows it by one. -/
theorem rank_succ (found : items[first]? = some item) (isMarked : marked item = true) :
    rank marked items (first + 1) = rank marked items first + 1 := by
  simp [rank, List.take_add_one, found, isMarked]

/-- A marked item counts for all places after its own. -/
theorem rank_lt (found : items[first]? = some item) (isMarked : marked item = true)
    (ordered : first < second) : rank marked items first < rank marked items second := by
  have step := rank_succ found isMarked
  have rest : rank marked items (first + 1) ≤ rank marked items second := rank_mono ordered
  omega

/-- The rank of a marked item is below the number of marked items. -/
theorem rank_lt_countP (found : items[first]? = some item) (isMarked : marked item = true) :
    rank marked items first < items.countP marked := by
  have below := rank_lt found isMarked (List.getElem?_eq_some_iff.mp found).1
  rwa [rank, rank, List.take_length] at below

/-- Every number below the count is the rank of a marked item. -/
theorem exists_rank_eq {number : Nat} (below : number < items.countP marked) :
    ∃ place item, items[place]? = some item ∧ marked item = true ∧
      rank marked items place = number := by
  -- The induction is on the items; a marked head takes the number zero for itself.
  induction items generalizing number with
  | nil => simp at below
  | cons head tail ih =>
    by_cases isMarked : marked head = true
    · cases number with
      | zero => exact ⟨0, head, rfl, isMarked, by simp [rank]⟩
      | succ number =>
        rw [List.countP_cons_of_pos isMarked] at below
        obtain ⟨place, item, found, itemMarked, same⟩ := ih (Nat.lt_of_succ_lt_succ below)
        exact ⟨place + 1, item, found, itemMarked, by simpa [rank, isMarked] using same⟩
    · rw [List.countP_cons_of_neg isMarked] at below
      obtain ⟨place, item, found, itemMarked, same⟩ := ih below
      exact ⟨place + 1, item, found, itemMarked, by simpa [rank, isMarked] using same⟩

/-- Numbers can be assigned to marked items by their rank. -/
theorem exists_by_rank (marked : α → Bool) (items : List α) (value : α → Rat) :
    ∃ assign : Nat → Rat, ∀ place item, items[place]? = some item → marked item = true →
      assign (rank marked items place) = value item := by
  -- The number of a marked item is looked up among the ranks.
  classical
  refine ⟨fun number => if taken : ∃ item place, items[place]? = some item ∧ marked item = true ∧
    rank marked items place = number then value taken.choose else 0, ?_⟩
  intro place item found isMarked
  have taken : ∃ other at_, items[at_]? = some other ∧ marked other = true ∧
      rank marked items at_ = rank marked items place := ⟨item, place, found, isMarked, rfl⟩
  obtain ⟨at_, foundThere, otherMarked, same⟩ := taken.choose_spec
  -- Two marked items of the same rank stand in the same place.
  have equal : at_ = place := by
    rcases Nat.lt_trichotomy at_ place with before | here | after
    · exact absurd same (rank_lt foundThere otherMarked before).ne
    · exact here
    · exact absurd same.symm (rank_lt found isMarked after).ne
  dsimp only
  rw [dif_pos taken]
  subst equal
  exact congrArg value (Option.some.inj (foundThere.symm.trans found))

end Rank

section Equation

variable {unknowns : List String} {constraint : Constraint} {x : String → Rat} {y : Nat → Rat}

/-- Every equation has a right-hand side of at least 0. -/
theorem Constraint.equation_rhs_nonneg : 0 ≤ (constraint.equation unknowns).rhs := by
  -- An equation with a negative right-hand side is the one that is negated.
  simp only [Constraint.equation]
  split
  · rename_i negated
    simp only [Bool.or_eq_true, Bool.and_eq_true, decide_eq_true_eq] at negated
    show 0 ≤ -constraint.bound
    rcases negated with negative | ⟨zero, _⟩
    · linarith
    · rw [zero, neg_zero]
  · rename_i kept
    simp only [Bool.or_eq_true, Bool.and_eq_true, decide_eq_true_eq, not_or, not_lt] at kept
    exact kept.1

/-- An equation has a coefficient for each variable. -/
@[simp] theorem Constraint.length_equation :
    (constraint.equation unknowns).decision.length = unknowns.length := by
  simp only [Constraint.equation]
  split <;> simp

/-- An equation has the slack of its relation, or is negated as a whole. -/
theorem Constraint.equation_holds (distinct : unknowns.Nodup)
    (known : ∀ term ∈ constraint.form, term.1 ∈ unknowns)
    (agree : ∀ place (within : place < unknowns.length), y place = x unknowns[place])
    (slack : Rat) :
    combine (constraint.equation unknowns).decision y +
        (constraint.equation unknowns).slack * slack = (constraint.equation unknowns).rhs ↔
      constraint.form.eval x + constraint.relation.slack * slack = constraint.bound := by
  have value := LinearForm.eval_eq_combine distinct known agree
  simp only [Constraint.equation]
  -- Negating an equation does not change for which values it holds.
  split
  · rw [combine_map_neg, ← value]
    constructor <;> intro holds <;> linarith
  · rw [← value]

/-- A constraint holds if some slack that is not negative makes it an equation. -/
theorem Relation.holds_of_slack {relation : Relation} {value bound slack : Rat}
    (nonneg : 0 ≤ slack) (equation : value + relation.slack * slack = bound) :
    relation.Holds value bound := by
  cases relation <;> simp only [Relation.slack, Relation.Holds] at equation ⊢ <;> linarith

/-- A slack makes an equation of a constraint that holds. -/
theorem Relation.exists_slack {relation : Relation} {value bound : Rat}
    (holds : relation.Holds value bound) :
    ∃ slack, 0 ≤ slack ∧ value + relation.slack * slack = bound := by
  -- The slack is what the value is away from the bound.
  cases relation with
  | atLeast =>
    refine ⟨value - bound, ?_, ?_⟩ <;> simp only [Relation.slack, Relation.Holds] at holds ⊢ <;>
      linarith
  | atMost =>
    refine ⟨bound - value, ?_, ?_⟩ <;> simp only [Relation.slack, Relation.Holds] at holds ⊢ <;>
      linarith
  | equal => exact ⟨0, le_rfl, by simpa [Relation.slack, Relation.Holds] using holds⟩

end Equation

section Row

variable {columns : Columns} {equation : Equation} {slack artificial : Nat}

/-- A row takes its right-hand side from its equation. -/
theorem Equation.row_rhs : (equation.row columns slack artificial).rhs = equation.rhs := by
  simp only [Equation.row]
  split <;> rfl

/-- A row is basic in its slack column if the slack can be, and in its artificial column otherwise.
-/
theorem Equation.row_basic : (equation.row columns slack artificial).basic =
    if equation.slackIsBasic = true then columns.decisions + slack
    else columns.real + artificial := by
  simp only [Equation.row]
  split <;> rfl

/-- The coefficients of a row: those of the equation, its slack, and one for its artificial column
where it has one. -/
theorem Equation.row_coefficients : (equation.row columns slack artificial).coefficients =
    equation.decision ++ unitList columns.slacks slack equation.slack ++
      unitList columns.artificials artificial (if equation.slackIsBasic = true then 0 else 1) := by
  simp only [Equation.row]
  split
  · -- Without an artificial column of its own, a row has zeros there.
    have zeros : unitList columns.artificials artificial 0 =
        List.replicate columns.artificials 0 := by
      simp [unitList, List.map_const']
    rw [zeros]
  · rfl

/-- A row is as wide as the columns. -/
theorem Equation.length_row (sized : equation.decision.length = columns.decisions) :
    (equation.row columns slack artificial).coefficients.length = columns.width := by
  simp [Equation.row_coefficients, sized, Columns.width, Columns.real, Nat.add_assoc]

/-- In the slack columns a row only mentions its own slack. -/
theorem Equation.entry_slack (sized : equation.decision.length = columns.decisions) {place : Nat}
    (within : place < columns.slacks) :
    (equation.row columns slack artificial).entry (columns.decisions + place) =
      if place = slack then equation.slack else 0 := by
  -- The place lies behind the decisions and before the artificial columns.
  have inside : columns.decisions + place <
      (equation.decision ++ unitList columns.slacks slack equation.slack).length := by
    simp [sized, within]
  rw [Row.entry, Equation.row_coefficients, List.getD_append _ _ _ _ inside,
    List.getD_append_right _ _ _ _ (by omega), sized, Nat.add_sub_cancel_left, getD_unitList]
  simp [within]

/-- In the artificial columns a row only mentions its own one, if it has one. -/
theorem Equation.entry_artificial (sized : equation.decision.length = columns.decisions)
    {place : Nat} (within : place < columns.artificials) :
    (equation.row columns slack artificial).entry (columns.real + place) =
      if place = artificial ∧ equation.slackIsBasic = false then 1 else 0 := by
  -- The artificial columns come after all others, and the row has one of them at most.
  have beyond : (equation.decision ++ unitList columns.slacks slack equation.slack).length ≤
      columns.real + place := by
    simp [sized, Columns.real]
  have rest : columns.real + place -
      (equation.decision ++ unitList columns.slacks slack equation.slack).length = place := by
    simp [sized, Columns.real]
  rw [Row.entry, Equation.row_coefficients, List.getD_append_right _ _ _ _ beyond, rest,
    getD_unitList]
  by_cases same : place = artificial
  · subst same
    cases equation.slackIsBasic <;> simp [within]
  · simp [same]

/-- What a row adds up to: its equation, and its artificial column where it has one. -/
theorem Equation.combine_row (sized : equation.decision.length = columns.decisions)
    (slackWithin : equation.slack ≠ 0 → slack < columns.slacks)
    (artificialWithin : equation.slackIsBasic = false → artificial < columns.artificials)
    (y : Nat → Rat) : combine (equation.row columns slack artificial).coefficients y =
      combine equation.decision y + equation.slack * y (columns.decisions + slack) +
        (if equation.slackIsBasic = true then 0 else y (columns.real + artificial)) := by
  -- The slack counts with its coefficient, which may be zero.
  have slackPart : combine (unitList columns.slacks slack equation.slack)
      (fun place => y (columns.decisions + place)) =
        equation.slack * y (columns.decisions + slack) := by
    by_cases zero : equation.slack = 0
    · rw [zero, combine_unitList_zero, zero_mul]
    · exact combine_unitList (slackWithin zero) _ _
  -- So does the artificial column, which the row may not have.
  have artificialPart : combine (unitList columns.artificials artificial
      (if equation.slackIsBasic = true then 0 else 1)) (fun place => y (columns.real + place)) =
        if equation.slackIsBasic = true then 0 else y (columns.real + artificial) := by
    cases basic : equation.slackIsBasic with
    | true => exact combine_unitList_zero _ _ _
    | false => simpa using combine_unitList (artificialWithin basic) 1 _
  rw [Equation.row_coefficients, combine_append, combine_append, List.length_append, sized,
    length_unitList, slackPart]
  exact congrArg _ artificialPart

/-- Each equation is laid out as one row. -/
@[simp] theorem length_layRows (columns : Columns) (equations : List Equation) :
    ∀ slack artificial,
      (layRows columns slack artificial equations).length = equations.length := by
  induction equations with
  | nil => simp [layRows]
  | cons head tail ih => simp [layRows, ih]

/-- The slack and artificial columns of a row are numbered by its rank among those that need one. -/
theorem getElem?_layRows (columns : Columns) (equations : List Equation) :
    ∀ slack artificial (place : Nat), (layRows columns slack artificial equations)[place]? =
      equations[place]?.map fun equation : Equation => equation.row columns
        (slack + rank (·.slack ≠ 0) equations place)
        (artificial + rank (!·.slackIsBasic) equations place) := by
  -- The induction is on the equations, with the numbers that are free.
  induction equations with
  | nil => simp [layRows]
  | cons head tail ih =>
    intro slack artificial place
    cases place with
    | zero => simp [layRows, rank]
    | succ place =>
      simp only [layRows, List.getElem?_cons_succ, ih]
      refine congrArg (Option.map · _) (funext fun equation => ?_)
      -- The head hands the next number on, unless it has used none.
      congr 1
      · by_cases zero : head.slack = 0
        · simp [rank, zero]
        · simp only [rank, zero, List.take_succ_cons, ne_eq, not_false_eq_true, decide_true,
            List.countP_cons_of_pos, if_false]
          omega
      · cases basic : head.slackIsBasic with
        | true => simp [rank, basic]
        | false =>
          simp only [rank, basic, List.take_succ_cons, Bool.not_false, List.countP_cons_of_pos]
          simp only [Bool.false_eq_true, if_false]
          omega

end Row

namespace LinearProgram

open Tableau

variable {program : LinearProgram}

/-- The number of the slack column that the equation at a place would take. -/
def slackColumn (program : LinearProgram) (place : Nat) : Nat :=
  program.columns.decisions + rank (·.slack ≠ 0) program.equations place

/-- The number of the artificial column that the equation at a place would take. -/
def artificialColumn (program : LinearProgram) (place : Nat) : Nat :=
  program.columns.real + rank (!·.slackIsBasic) program.equations place

/-- The row that the equation at a place has in the starting tableau. -/
def startingRow (program : LinearProgram) (place : Nat) (equation : Equation) : Row :=
  equation.row program.columns (rank (·.slack ≠ 0) program.equations place)
    (rank (!·.slackIsBasic) program.equations place)

/-- The row at a place of the starting tableau is the starting row of the equation at that place. -/
theorem getElem?_startingTableau (place : Nat) :
    program.startingTableau.rows[place]? =
      program.equations[place]?.map (program.startingRow place) := by
  simp only [startingTableau, getElem?_layRows, Nat.zero_add]
  rfl

/-- Every equation has a row in the starting tableau, and there are no other rows. -/
theorem mem_startingTableau {row : Row} : row ∈ program.startingTableau.rows ↔
    ∃ place equation, program.equations[place]? = some equation ∧
      program.startingRow place equation = row := by
  rw [List.mem_iff_getElem?]
  simp only [getElem?_startingTableau, Option.map_eq_some_iff]

/-- Equations come from constraints. -/
theorem exists_constraint {place : Nat} {equation : Equation}
    (found : program.equations[place]? = some equation) :
    ∃ constraint ∈ program.constraints, constraint.equation program.unknowns = equation := by
  simpa [equations] using List.mem_of_getElem? found

/-- Each equation of a program has a coefficient for each of its variables. -/
theorem length_decision {place : Nat} {equation : Equation}
    (found : program.equations[place]? = some equation) :
    equation.decision.length = program.unknowns.length := by
  obtain ⟨constraint, _, rfl⟩ := exists_constraint found
  simp

/-- A slack that can be basic has a coefficient. -/
theorem slack_ne_zero_of_basic {equation : Equation} (basic : equation.slackIsBasic = true) :
    equation.slack ≠ 0 := by
  have one : equation.slack = 1 := by simpa [Equation.slackIsBasic] using basic
  rw [one]
  exact one_ne_zero

/-- The slack number of an equation is below the number of slack columns. -/
theorem slack_lt {place : Nat} {equation : Equation}
    (found : program.equations[place]? = some equation) (nonzero : equation.slack ≠ 0) :
    rank (·.slack ≠ 0) program.equations place < program.columns.slacks :=
  rank_lt_countP found (by simpa using nonzero)

/-- The artificial number of an equation is below the number of artificial columns. -/
theorem artificial_lt {place : Nat} {equation : Equation}
    (found : program.equations[place]? = some equation) (absent : equation.slackIsBasic = false) :
    rank (!·.slackIsBasic) program.equations place < program.columns.artificials :=
  rank_lt_countP found (by simpa using absent)

/-- The slack column of an equation is a real one. -/
theorem slackColumn_lt {place : Nat} {equation : Equation}
    (found : program.equations[place]? = some equation) (nonzero : equation.slack ≠ 0) :
    program.slackColumn place < program.columns.real := by
  have below := slack_lt found nonzero
  simp only [slackColumn, Columns.real]
  omega

/-- Every column between the decisions and the artificial columns is the slack of an equation. -/
theorem exists_slackColumn_eq {column : Nat} (beyond : program.unknowns.length ≤ column)
    (below : column < program.columns.real) : ∃ place equation,
      program.equations[place]? = some equation ∧ equation.slack ≠ 0 ∧
        program.slackColumn place = column := by
  -- The column is as many slacks behind the decisions as its equation has before it.
  have number : column - program.unknowns.length <
      program.equations.countP fun equation => decide (equation.slack ≠ 0) := by
    simp only [columns, Columns.ofEquations, Columns.real] at below ⊢
    omega
  obtain ⟨place, equation, found, isMarked, same⟩ := exists_rank_eq number
  refine ⟨place, equation, found, by simpa using isMarked, ?_⟩
  rw [slackColumn, same]
  exact Nat.add_sub_cancel' beyond

/-- An artificial column lies within the width. -/
theorem artificialColumn_lt {place : Nat} {equation : Equation}
    (found : program.equations[place]? = some equation) (absent : equation.slackIsBasic = false) :
    program.artificialColumn place < program.columns.width := by
  have below := artificial_lt found absent
  simp only [artificialColumn, Columns.width]
  omega

/-- There are at least as many columns as variables. -/
theorem length_unknowns_le : program.unknowns.length ≤ program.columns.width := by
  simp only [columns, Columns.ofEquations, Columns.width, Columns.real]
  omega

/-- The artificial columns come last, behind all real ones. -/
theorem real_le_width : program.columns.real ≤ program.columns.width :=
  Nat.le_add_right _ _

/-- What the row of an equation adds up to in the starting tableau. -/
theorem combine_startingRow {place : Nat} {equation : Equation}
    (found : program.equations[place]? = some equation) (y : Nat → Rat) :
    combine (program.startingRow place equation).coefficients y =
      combine equation.decision y + equation.slack * y (program.slackColumn place) +
        (if equation.slackIsBasic = true then 0 else y (program.artificialColumn place)) :=
  Equation.combine_row (length_decision found) (slack_lt found) (artificial_lt found) y

/-- The starting tableau has no negative right-hand side. -/
theorem feasible_startingTableau (program : LinearProgram) : program.startingTableau.Feasible := by
  intro row member
  obtain ⟨place, equation, found, rfl⟩ := mem_startingTableau.mp member
  -- A row of the start is made from a constraint, and its right-hand side from the bound.
  obtain ⟨constraint, _, rfl⟩ := exists_constraint found
  rw [startingRow, Equation.row_rhs]
  exact constraint.equation_rhs_nonneg

/-- The basic column of the row of an equation. -/
theorem basic_startingRow (program : LinearProgram) (place : Nat) (equation : Equation) :
    (program.startingRow place equation).basic =
      if equation.slackIsBasic = true then program.slackColumn place
      else program.artificialColumn place :=
  Equation.row_basic

/-- The row of an equation mentions the basic column of its own row only. -/
theorem entry_startingRow {place other : Nat} {equation another : Equation}
    (found : program.equations[place]? = some equation)
    (otherFound : program.equations[other]? = some another) :
    (program.startingRow place equation).entry (program.startingRow other another).basic =
      if place = other then 1 else 0 := by
  have sized := length_decision found
  rw [basic_startingRow, startingRow]
  cases basic : another.slackIsBasic with
  | true =>
    -- No two rows have the same slack column, since a row with a slack raises the rank.
    have nonzero := slack_ne_zero_of_basic basic
    simp only [if_true, slackColumn]
    rw [Equation.entry_slack sized (slack_lt otherFound nonzero)]
    rcases Nat.lt_trichotomy place other with before | rfl | after
    · -- An earlier row of the same rank has no slack at all.
      rw [if_neg before.ne]
      split
      · rename_i same
        by_contra present
        exact absurd same.symm (rank_lt found (by simpa using present) before).ne
      · rfl
    · have equal : equation = another := Option.some.inj (found.symm.trans otherFound)
      rw [if_pos rfl, if_pos rfl, equal]
      simpa [Equation.slackIsBasic] using basic
    · -- In a later row the other one has been counted.
      rw [if_neg after.ne', if_neg (rank_lt otherFound (by simpa using nonzero) after).ne]
  | false =>
    -- As for slacks, no two rows have the same artificial column.
    simp only [Bool.false_eq_true, if_false, artificialColumn]
    rw [Equation.entry_artificial sized (artificial_lt otherFound basic)]
    rcases Nat.lt_trichotomy place other with before | rfl | after
    · rw [if_neg before.ne, if_neg]
      rintro ⟨same, absent⟩
      exact absurd same.symm (rank_lt found (by simpa using absent) before).ne
    · have equal : equation = another := Option.some.inj (found.symm.trans otherFound)
      rw [if_pos rfl, equal, if_pos ⟨rfl, basic⟩]
    · rw [if_neg after.ne', if_neg]
      rintro ⟨same, _⟩
      exact absurd same (rank_lt otherFound (by simpa using basic) after).ne

/-- The starting tableau is in canonical form for the columns that its rows start with. -/
theorem canonical_startingTableau (program : LinearProgram) :
    program.startingTableau.Canonical program.columns.width where
  sized row member := by
    obtain ⟨place, equation, found, rfl⟩ := mem_startingTableau.mp member
    exact Equation.length_row (length_decision found)
  within row member := by
    obtain ⟨place, equation, found, rfl⟩ := mem_startingTableau.mp member
    rw [basic_startingRow]
    -- The basic column is that of the slack, or else that of the artificial variable.
    cases basic : equation.slackIsBasic with
    | true => exact (slackColumn_lt found (slack_ne_zero_of_basic basic)).trans_le real_le_width
    | false => exact artificialColumn_lt found basic
  distinct := by
    -- A later row does not mention the basic column of an earlier one, which that one does.
    refine List.nodup_iff_getElem?_ne_getElem?.mpr fun first second ordered within same => ?_
    have inside : second < program.startingTableau.rows.length := by simpa using within
    have found {place : Nat} (below : place < program.startingTableau.rows.length) :
        ∃ equation, program.equations[place]? = some equation := by
      have located := List.getElem?_eq_getElem below
      rw [getElem?_startingTableau] at located
      exact (Option.map_eq_some_iff.mp located).imp fun _ both => both.1
    obtain ⟨before, beforeFound⟩ := found (ordered.trans inside)
    obtain ⟨after, afterFound⟩ := found inside
    simp only [List.getElem?_map, getElem?_startingTableau, beforeFound, afterFound,
      Option.map_some, Option.some.injEq] at same
    -- The later row would have both a one and a zero in the same place.
    have own := entry_startingRow afterFound afterFound
    rw [← same, entry_startingRow afterFound beforeFound, if_neg ordered.ne', if_pos rfl] at own
    exact zero_ne_one own
  unit row member := by
    obtain ⟨place, equation, found, rfl⟩ := mem_startingTableau.mp member
    rw [entry_startingRow found found, if_pos rfl]
  alone row member other otherMember different := by
    obtain ⟨place, equation, found, rfl⟩ := mem_startingTableau.mp member
    obtain ⟨place', another, otherFound, rfl⟩ := mem_startingTableau.mp otherMember
    rw [entry_startingRow found otherFound, if_neg]
    -- Rows at the same place are the same row.
    rintro rfl
    have equal : equation = another := Option.some.inj (found.symm.trans otherFound)
    exact different (by rw [equal])

section Points

variable {x : String → Rat} {y : Nat → Rat}

/-- The decision columns hold the values of the variables. -/
def Agrees (program : LinearProgram) (x : String → Rat) (y : Nat → Rat) : Prop :=
  ∀ place (within : place < program.unknowns.length), y place = x program.unknowns[place]

/-- What may not enter is zero, and so are all artificial columns. -/
theorem eq_zero_of_admits (admits : Admits program.columns.width (· < program.columns.real) y) :
    ∀ column < program.columns.width, program.columns.real ≤ column → y column = 0 :=
  fun column within high => admits.zero column within (by simpa using high)

/-- A solution of the starting tableau without artificial columns satisfies each equation with its
slack. -/
theorem slack_of_solves (solves : program.startingTableau.Solves y)
    (zero : ∀ column < program.columns.width, program.columns.real ≤ column → y column = 0)
    {place : Nat} {equation : Equation} (found : program.equations[place]? = some equation) :
    combine equation.decision y + equation.slack * y (program.slackColumn place) =
      equation.rhs := by
  -- What a row adds up to beyond its equation is an artificial column, which is zero.
  have holds := solves _ (mem_startingTableau.mpr ⟨place, equation, found, rfl⟩)
  rw [combine_startingRow found, startingRow, Equation.row_rhs] at holds
  cases basic : equation.slackIsBasic with
  | true => simpa [basic] using holds
  | false =>
    have none_ := zero _ (artificialColumn_lt found basic) (Nat.le_add_right _ _)
    simpa [basic, none_] using holds

/-- Non-negative solutions without artificial columns are feasible points. -/
theorem WellFormed.feasible_of_solves (wellFormed : program.WellFormed)
    (agrees : program.Agrees x y) (solves : program.startingTableau.Solves y)
    (admits : Admits program.columns.width (· < program.columns.real) y) : program.Feasible x := by
  refine ⟨fun name member => ?_, fun constraint member => ?_⟩
  · obtain ⟨place, within, rfl⟩ := List.mem_iff_getElem.mp member
    rw [← agrees place within]
    exact admits.nonneg place (within.trans_le length_unknowns_le)
  · -- Each constraint holds with what the slack column of its equation has for a value.
    obtain ⟨place, located⟩ := List.mem_iff_getElem?.mp member
    have found : program.equations[place]? = some (constraint.equation program.unknowns) := by
      simp [equations, located]
    have holds := slack_of_solves solves (eq_zero_of_admits admits) found
    -- A slack without a coefficient may as well be zero.
    by_cases zero : (constraint.equation program.unknowns).slack = 0
    · refine Relation.holds_of_slack le_rfl ((Constraint.equation_holds wellFormed.distinct
        (wellFormed.known constraint member) agrees 0).mp ?_)
      rw [zero, zero_mul] at holds ⊢
      exact holds
    · exact Relation.holds_of_slack
        (admits.nonneg _ ((slackColumn_lt found zero).trans_le real_le_width))
        ((Constraint.equation_holds wellFormed.distinct
          (wellFormed.known constraint member) agrees _).mp holds)

/-- At a feasible point every equation holds with some slack that is not negative. -/
theorem WellFormed.exists_slack (wellFormed : program.WellFormed) (agrees : program.Agrees x y)
    (feasible : program.Feasible x) {place : Nat} {equation : Equation}
    (found : program.equations[place]? = some equation) :
    ∃ slack, 0 ≤ slack ∧ combine equation.decision y + equation.slack * slack = equation.rhs := by
  -- Every equation comes from a constraint, whose gap at the point is the slack.
  obtain ⟨constraint, member, rfl⟩ := exists_constraint found
  obtain ⟨slack, nonneg, holds⟩ := Relation.exists_slack (feasible.2 constraint member)
  exact ⟨slack, nonneg, (Constraint.equation_holds wellFormed.distinct
    (wellFormed.known constraint member) agrees slack).mpr holds⟩

/-- The columns of a point: its variables, given slacks, and zero in the artificial columns. -/
def columnsOf (program : LinearProgram) (x : String → Rat) (slacks : Nat → Rat) (column : Nat) :
    Rat :=
  if column < program.columns.decisions then (program.unknowns[column]?.map x).getD 0
  else if column < program.columns.real then slacks (column - program.columns.decisions) else 0

variable {slacks : Nat → Rat}

/-- The columns of a point hold the point on the variables. -/
theorem agrees_columnsOf : program.Agrees x (program.columnsOf x slacks) := fun place within => by
  -- The decision columns come first, in the order of the variables.
  rw [columnsOf, if_pos (show place < program.columns.decisions from within),
    List.getElem?_eq_getElem within]
  rfl

/-- The columns of a point hold the given slack at a slack column. -/
theorem columnsOf_slackColumn {place : Nat} {equation : Equation}
    (found : program.equations[place]? = some equation) (nonzero : equation.slack ≠ 0) :
    program.columnsOf x slacks (program.slackColumn place) =
      slacks (rank (·.slack ≠ 0) program.equations place) := by
  -- A slack column comes after the variables and before the artificial columns.
  have beyond : ¬ program.slackColumn place < program.columns.decisions := by simp [slackColumn]
  rw [columnsOf, if_neg beyond, if_pos (slackColumn_lt found nonzero), slackColumn,
    Nat.add_sub_cancel_left]

/-- The columns of a point are 0 from the artificial ones on. -/
theorem columnsOf_of_real_le {column : Nat} (high : program.columns.real ≤ column) :
    program.columnsOf x slacks column = 0 := by
  rw [columnsOf, if_neg (not_lt.mpr ((Nat.le_add_right _ _).trans high)),
    if_neg (not_lt.mpr high)]

/-- Feasible points are non-negative solutions without artificial columns. -/
theorem WellFormed.exists_solves (wellFormed : program.WellFormed) (feasible : program.Feasible x) :
    ∃ y, program.Agrees x y ∧ program.startingTableau.Solves y ∧
      Admits program.columns.width (· < program.columns.real) y := by
  -- The slack columns take what their equations leave over for them.
  let decisions := program.columnsOf x fun _ => 0
  have initial : program.Agrees x decisions := agrees_columnsOf
  obtain ⟨slacks, assigned⟩ := exists_by_rank (·.slack ≠ 0) program.equations
    fun equation => (equation.rhs - combine equation.decision decisions) / equation.slack
  -- In its own place each equation finds what it has left over.
  have left {place : Nat} {equation : Equation} (found : program.equations[place]? = some equation)
      (nonzero : equation.slack ≠ 0) {slack : Rat}
      (holds : combine equation.decision decisions + equation.slack * slack = equation.rhs) :
      slacks (rank (·.slack ≠ 0) program.equations place) = slack := by
    rw [assigned place equation found (by simpa using nonzero), div_eq_iff nonzero]
    linarith
  refine ⟨program.columnsOf x slacks, agrees_columnsOf, ?_, fun column _ => ?_,
    fun column _ refused => columnsOf_of_real_le (by simpa using refused)⟩
  · intro row member
    obtain ⟨place, equation, found, rfl⟩ := mem_startingTableau.mp member
    -- The variables and the slack make up for the right-hand side, and nothing else counts.
    obtain ⟨slack, _, holds⟩ := wellFormed.exists_slack initial feasible found
    have artificial : program.columnsOf x slacks (program.artificialColumn place) = 0 :=
      columnsOf_of_real_le (Nat.le_add_right _ _)
    have decided : combine equation.decision (program.columnsOf x slacks) =
        combine equation.decision decisions := by
      refine combine_congr fun column within => ?_
      rw [length_decision found] at within
      exact (agrees_columnsOf column within).trans (initial column within).symm
    rw [combine_startingRow found, decided, artificial, ite_self, add_zero, startingRow,
      Equation.row_rhs, ← holds]
    -- An equation without a slack holds as it is.
    by_cases absent : equation.slack = 0
    · rw [absent, zero_mul, zero_mul]
    · rw [columnsOf_slackColumn found absent, left found absent holds]
  · -- A column holds a variable, the slack of an equation, or zero.
    rcases Nat.lt_or_ge column program.unknowns.length with decision | beyond
    · rw [agrees_columnsOf column decision]
      exact feasible.1 _ (List.getElem_mem _)
    rcases Nat.lt_or_ge column program.columns.real with below | high
    · obtain ⟨place, equation, found, nonzero, rfl⟩ := exists_slackColumn_eq beyond below
      obtain ⟨slack, nonneg, holds⟩ := wellFormed.exists_slack initial feasible found
      rw [columnsOf_slackColumn found nonzero, left found nonzero holds]
      exact nonneg
    · rw [columnsOf_of_real_le high]

/-- The values of the variables settle those of the slacks. -/
theorem eq_of_agrees {z : Nat → Rat} (yAgrees : program.Agrees x y) (zAgrees : program.Agrees x z)
    (ySolves : program.startingTableau.Solves y) (zSolves : program.startingTableau.Solves z)
    (yZero : ∀ column < program.columns.width, program.columns.real ≤ column → y column = 0)
    (zZero : ∀ column < program.columns.width, program.columns.real ≤ column → z column = 0) :
    ∀ column < program.columns.width, y column = z column := by
  -- A slack is what its equation leaves over once the variables are given.
  intro column within
  rcases Nat.lt_or_ge column program.unknowns.length with decision | beyond
  · rw [yAgrees column decision, zAgrees column decision]
  rcases Nat.lt_or_ge column program.columns.real with low | high
  · obtain ⟨place, equation, found, nonzero, rfl⟩ := exists_slackColumn_eq beyond low
    have decided : combine equation.decision y = combine equation.decision z := by
      refine combine_congr fun place below => ?_
      rw [length_decision found] at below
      rw [yAgrees place below, zAgrees place below]
    -- Both slacks make up for the same difference.
    have yHolds := slack_of_solves ySolves yZero found
    have zHolds := slack_of_solves zSolves zZero found
    refine mul_left_cancel₀ nonzero ?_
    linarith
  · rw [yZero column within high, zZero column within high]

end Points

end LinearProgram

end CycleSchedule
