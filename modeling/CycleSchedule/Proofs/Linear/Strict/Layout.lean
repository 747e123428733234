import CycleSchedule.Proofs.Linear.Strict.Lookup
import CycleSchedule.Proofs.Linear.Start

/-! The rows of a starting tableau, written place by place: in a well-formed program every variable
has its column, and every slack and artificial column lies within the rows. -/

namespace CycleSchedule

namespace Strict

/-- The multiples in a form, each in the column of its variable. -/
def spread (columnOf : NameTable Nat) (width : Nat) (form : LinearForm) :
    Except Slip (List Rat) :=
  form.foldlM (fun row term => do
    -- Several terms for one variable add up in its column.
    let column ← valueOf columnOf term.1
    let old ← item row column
    replaced row column (old + term.2)) (List.replicate width 0)

/-- A constraint over the decision columns, with the column of its slack if it has one. -/
structure Entry where
  decision : List Rat
  rhs : Rat
  slack : Option Nat
  slackIsBasic : Bool
deriving DecidableEq, Repr

/-- The entry of a constraint, given the next column for a slack. -/
def entry (columnOf : NameTable Nat) (unknowns column : Nat) (constraint : Constraint) :
    Except Slip Entry := do
  let decision ← spread columnOf unknowns constraint.form
  -- An equality has no slack, all other relations take the next column.
  let slack := if constraint.relation = .equal then none else some column
  let sign := constraint.relation.slack
  -- A constraint is turned round where that makes its right-hand side nonnegative or its slack
  -- basic.
  if constraint.bound < 0 || (constraint.bound = 0 && sign = -1) then
    return ⟨decision.map (-·), -constraint.bound, slack, -sign = 1⟩
  else return ⟨decision, constraint.bound, slack, sign = 1⟩

/-- The entries of constraints; slack columns are handed out in order. -/
def entries (columnOf : NameTable Nat) (unknowns : Nat) :
    Nat → List Constraint → Except Slip (List Entry)
  | _, [] => return []
  | column, constraint :: constraints => do
    let first ← entry columnOf unknowns column constraint
    -- Only a constraint that has taken a slack column moves on to the next one.
    let next := if constraint.relation = .equal then column else column + 1
    let rest ← entries columnOf unknowns next constraints
    return first :: rest

/-- A row with the slack of an entry in its column, if the entry has one. -/
def withSlack (entry : Entry) (row : List Rat) : Except Slip (List Rat) :=
  match entry.slack with
  | none => .ok row
  | some column => replaced row column (if entry.slackIsBasic then 1 else -1)

/-- The column of the slack of an entry, which is asserted to have one. -/
def slackColumn (entry : Entry) : Except Slip Nat :=
  match entry.slack with
  | none => .error .failedAssertion
  | some column => .ok column

/-- The row of an entry and its basic column, given how many columns there are beside the decisions
and the next artificial one. -/
def layRow (beside artificial : Nat) (entry : Entry) : Except Slip (List Rat × Nat) := do
  let slacked ← withSlack entry (entry.decision ++ List.replicate beside 0)
  -- A row is basic in its slack if that has coefficient one, and else in a new artificial column.
  if entry.slackIsBasic then do
    let column ← slackColumn entry
    return (slacked, column)
  else do
    let full ← replaced slacked artificial 1
    return (full, artificial)

/-- The rows of entries, with right-hand sides and basic columns; artificial columns are handed out
in order. -/
def layAll (beside : Nat) : Nat → List Entry → Except Slip (List (List Rat × Rat × Nat))
  | _, [] => return []
  | artificial, entry :: entries => do
    let (row, basic) ← layRow beside artificial entry
    -- Only a row without a basic slack has used its artificial column up.
    let next := if entry.slackIsBasic then artificial else artificial + 1
    let rest ← layAll beside next entries
    return (row, entry.rhs, basic) :: rest

variable {unknowns : List String} {form : LinearForm} {constraint : Constraint}

/-- The columns of variables by their names. -/
def columnTable (unknowns : List String) : NameTable Nat := NameTable.ofPairs unknowns.zipIdx

/-- A variable stands for the column at its place. -/
theorem exists_columnTable (distinct : unknowns.Nodup) {name : String} (known : name ∈ unknowns) :
    ∃ place, unknowns[place]? = some name ∧
      valueOf (columnTable unknowns) name = .ok place := by
  obtain ⟨place, located⟩ := List.mem_iff_getElem?.mp known
  -- The names are distinct, so no later column hides the one at the place.
  have names : (unknowns.zipIdx.map (·.1)).Nodup := by simpa using distinct
  refine ⟨place, located, valueOf_of_get? ?_⟩
  rw [columnTable, NameTable.ofPairs_of_nodup names]
  exact NameTable.get?_of_mem names (List.mem_zipIdx_iff_getElem?.mpr located)

/-- Replacing the number of one variable replaces it in its place. -/
theorem set_map (distinct : unknowns.Nodup) {name : String} {place : Nat}
    (located : unknowns[place]? = some name) (number : String → Rat) (value : Rat) :
    (unknowns.map number).set place value =
      unknowns.map fun other => if name = other then value else number other := by
  -- The lists agree place by place.
  refine List.ext_getElem? fun at_ => ?_
  rw [List.getElem?_map]
  by_cases same : place = at_
  · subst same
    have within := (List.getElem?_eq_some_iff.mp located).1
    rw [located, List.getElem?_set_self (by simpa using within), Option.map_some, if_pos rfl]
  · rw [List.getElem?_set_ne same, List.getElem?_map]
    -- The name stands in one place only.
    cases found : unknowns[at_]? with
    | none => rfl
    | some other =>
      have different : name ≠ other := by
        rintro rfl
        have within := (List.getElem?_eq_some_iff.mp located).1
        exact same ((List.getElem?_inj within distinct).mp (located.trans found.symm))
      simp [different]

/-- The multiples of known variables are put into their columns without a slip. -/
theorem spread_ok (distinct : unknowns.Nodup) (known : ∀ term ∈ form, term.1 ∈ unknowns)
    {width : Nat} (wide : unknowns.length ≤ width) :
    spread (columnTable unknowns) width form =
      .ok (unknowns.map form.coefficient ++ List.replicate (width - unknowns.length) 0) := by
  -- The induction is on the terms, from whatever multiples there are so far.
  suffices general : ∀ number : String → Rat,
      form.foldlM (fun row term => do
        let column ← valueOf (columnTable unknowns) term.1
        let old ← item row column
        replaced row column (old + term.2))
          (unknowns.map number ++ List.replicate (width - unknowns.length) 0) =
        .ok (unknowns.map (fun name => number name + form.coefficient name) ++
          List.replicate (width - unknowns.length) 0) by
    -- No term has been spread at first, so all multiples are zero.
    have zeros : List.replicate width (0 : Rat) =
        unknowns.map (fun _ => 0) ++ List.replicate (width - unknowns.length) 0 := by
      rw [List.map_const', List.replicate_append_replicate, Nat.add_sub_cancel' wide]
    rw [spread, zeros, general]
    simp
  induction form with
  | nil => simp [LinearForm.coefficient]
  | cons term form ih =>
    intro number
    obtain ⟨here, there⟩ := List.forall_mem_cons.mp known
    obtain ⟨place, located, found⟩ := exists_columnTable distinct here
    have within := (List.getElem?_eq_some_iff.mp located).1
    -- The column of the name holds its multiple so far, and gets the new one.
    have old : item (unknowns.map number ++ List.replicate (width - unknowns.length) 0) place =
        .ok (number term.1) :=
      item_of_getElem? (by rw [List.getElem?_append_left (by simpa using within)]; simp [located])
    have new : replaced (unknowns.map number ++ List.replicate (width - unknowns.length) 0) place
        (number term.1 + term.2) =
        .ok (unknowns.map (fun other => if term.1 = other then number term.1 + term.2
          else number other) ++ List.replicate (width - unknowns.length) 0) := by
      rw [replaced_ok (by simp; omega), List.set_append_left _ _ (by simpa using within),
        set_map distinct located]
    rw [List.foldlM_cons, found, ok_bind, old, ok_bind, new, ok_bind, ih there]
    -- The terms that follow are added to what the first one has left.
    refine congrArg (fun row => Except.ok (row ++ _)) (List.map_congr_left fun name _ => ?_)
    rw [LinearForm.coefficient_cons]
    split
    · rename_i same
      rw [same]
      ring
    · ring

/-- The entry of an equation whose slack, if there is one, stands in a given column. -/
def entryOf (column : Nat) (equation : Equation) : Entry :=
  ⟨equation.decision, equation.rhs, if equation.slack = 0 then none else some column,
    equation.slackIsBasic⟩

/-- The entries of equations; slack columns are handed out in order. -/
def entriesOf : Nat → List Equation → List Entry
  | _, [] => []
  | column, equation :: equations =>
    entryOf column equation ::
      entriesOf (if equation.slack = 0 then column else column + 1) equations

/-- Only an equality has no slack. -/
theorem equation_slack_eq_zero_iff :
    (constraint.equation unknowns).slack = 0 ↔ constraint.relation = .equal := by
  simp only [Constraint.equation]
  split <;> cases constraint.relation <;> simp [Relation.slack]

/-- The entry of a constraint over known variables is made without a slip. -/
theorem entry_ok (distinct : unknowns.Nodup)
    (known : ∀ term ∈ constraint.form, term.1 ∈ unknowns) (column : Nat) :
    entry (columnTable unknowns) unknowns.length column constraint =
      .ok (entryOf column (constraint.equation unknowns)) := by
  have decision := spread_ok distinct known le_rfl
  rw [Nat.sub_self, List.replicate_zero, List.append_nil] at decision
  simp only [entry, decision, ok_bind, entryOf, equation_slack_eq_zero_iff]
  simp only [Constraint.equation]
  -- The entry is negated just where the equation is.
  split
  · rfl
  · rfl

/-- Constraints over known variables are turned into entries without a slip. -/
theorem entries_ok (distinct : unknowns.Nodup) : ∀ (constraints : List Constraint) (column : Nat),
    (∀ constraint ∈ constraints, ∀ term ∈ constraint.form, term.1 ∈ unknowns) →
    entries (columnTable unknowns) unknowns.length column constraints =
      .ok (entriesOf column (constraints.map (·.equation unknowns))) := by
  -- The induction is on the constraints, with the next column for a slack.
  intro constraints
  induction constraints with
  | nil =>
    intro column known
    rfl
  | cons constraint constraints ih =>
    intro column known
    obtain ⟨here, there⟩ := List.forall_mem_cons.mp known
    simp only [entries, entry_ok distinct here, ih _ there, ok_bind, List.map_cons, entriesOf,
      equation_slack_eq_zero_iff]
    rfl

/-- A column has one entry for each equation. -/
@[simp] theorem length_entriesOf (equations : List Equation) (column : Nat) :
    (entriesOf column equations).length = equations.length := by
  induction equations generalizing column with
  | nil => rfl
  | cons equation equations ih => simp [entriesOf, ih]

/-- As many entries need an artificial column as equations do. -/
theorem countP_entriesOf (equations : List Equation) (column : Nat) :
    (entriesOf column equations).countP (!·.slackIsBasic) =
      equations.countP (!·.slackIsBasic) := by
  induction equations generalizing column with
  | nil => rfl
  | cons equation equations ih => simp [entriesOf, entryOf, List.countP_cons, ih]

/-- Writing at the place of a unit list gives the unit list of the new value. -/
theorem set_unitList (length place : Nat) (old new : Rat) :
    (unitList length place old).set place new = unitList length place new := by
  refine List.ext_getElem (by simp) fun at_ _ within => ?_
  simp only [List.getElem_set, unitList, List.getElem_map, List.getElem_range]
  -- At the place itself both lists hold the new value, everywhere else they hold zeros.
  split
  · rename_i same
    simp [same]
  · rename_i different
    simp [Ne.symm different]

/-- A unit list of value 0 is all zeros. -/
theorem unitList_zero (length place : Nat) : unitList length place 0 = List.replicate length 0 := by
  simp [unitList, List.map_const']

/-- A slack that cannot be basic has the coefficient that negates it. -/
def Signed (equation : Equation) : Prop :=
  equation.slack ≠ 0 → equation.slackIsBasic = false → equation.slack = -1

/-- The equation of a constraint has a slack of sign -1, 0 or 1. -/
theorem signed_equation : Signed (constraint.equation unknowns) := by
  simp only [Signed, Equation.slackIsBasic, Constraint.equation]
  -- A slack has the coefficient one or its negation, whether the equation is negated or not.
  split <;> cases constraint.relation <;> norm_num [Relation.slack]

variable {columns : Columns} {equation : Equation} {slack artificial : Nat}

/-- A slack is put into its column without a slip if it is among those that there are. -/
theorem withSlack_ok (sized : equation.decision.length = columns.decisions)
    (signed : Signed equation) (within : equation.slack ≠ 0 → slack < columns.slacks)
    (rest : List Rat) :
    withSlack (entryOf (columns.decisions + slack) equation)
        (equation.decision ++ unitList columns.slacks slack 0 ++ rest) =
      .ok (equation.decision ++ unitList columns.slacks slack equation.slack ++ rest) := by
  by_cases absent : equation.slack = 0
  · -- An equality has nothing to replace.
    simp [withSlack, entryOf, absent]
  · -- The sign that the entry notes is the coefficient of the slack.
    have coefficient : (if equation.slackIsBasic then 1 else -1 : Rat) = equation.slack := by
      cases basic : equation.slackIsBasic with
      | true => simpa [Equation.slackIsBasic, eq_comm] using basic
      | false => simpa using (signed absent basic).symm
    simp only [withSlack, entryOf, absent, if_false, coefficient]
    rw [← sized, replaced_middle _ (by simpa using within absent), set_unitList]

/-- The row of an entry is laid without a slip if its slack and artificial columns are among those
that there are. -/
theorem layRow_ok (sized : equation.decision.length = columns.decisions)
    (signed : Signed equation) (slackWithin : equation.slack ≠ 0 → slack < columns.slacks)
    (artificialWithin : equation.slackIsBasic = false → artificial < columns.artificials) :
    layRow (columns.slacks + columns.artificials) (columns.real + artificial)
        (entryOf (columns.decisions + slack) equation) =
      .ok ((equation.row columns slack artificial).coefficients,
        (equation.row columns slack artificial).basic) := by
  have zeros : (entryOf (columns.decisions + slack) equation).decision ++
      List.replicate (columns.slacks + columns.artificials) 0 =
        equation.decision ++ unitList columns.slacks slack 0 ++
          unitList columns.artificials artificial 0 := by
    -- Before the slack and the artificial column are set, the row has zeros there.
    simp [entryOf, unitList_zero]
  have isBasic : (entryOf (columns.decisions + slack) equation).slackIsBasic =
      equation.slackIsBasic := rfl
  rw [layRow, zeros, withSlack_ok sized signed slackWithin, ok_bind, isBasic,
    Equation.row_coefficients, Equation.row_basic]
  cases basic : equation.slackIsBasic with
  | true =>
    -- A slack that can be basic is there.
    have column : slackColumn (entryOf (columns.decisions + slack) equation) =
        .ok (columns.decisions + slack) := by
      simp [slackColumn, entryOf, LinearProgram.slack_ne_zero_of_basic basic]
    simp [column]
  | false =>
    -- Without a basic slack the next artificial column is the basic one.
    have room : artificial < (unitList columns.artificials artificial 0).length := by
      simpa using artificialWithin basic
    have full := replaced_middle
      (equation.decision ++ unitList columns.slacks slack equation.slack) room [] 1
    simp only [List.append_nil, List.length_append, length_unitList, sized, set_unitList] at full
    simp only [Bool.false_eq_true, if_false, Columns.real, full, ok_bind]
    rfl

/-- The rows of entries are laid without a slip if there are columns enough. -/
theorem layAll_ok : ∀ (equations : List Equation) (slack artificial : Nat),
    (∀ equation ∈ equations, equation.decision.length = columns.decisions ∧ Signed equation) →
    slack + equations.countP (·.slack ≠ 0) ≤ columns.slacks →
    artificial + equations.countP (!·.slackIsBasic) ≤ columns.artificials →
    layAll (columns.slacks + columns.artificials) (columns.real + artificial)
        (entriesOf (columns.decisions + slack) equations) =
      .ok ((layRows columns slack artificial equations).map fun row =>
        (row.coefficients, row.rhs, row.basic)) := by
  -- The induction is on the equations, with the next slack and artificial columns.
  intro equations
  induction equations with
  | nil =>
    intro slack artificial each slacks artificials
    rfl
  | cons equation equations ih =>
    intro slack artificial each slacks artificials
    obtain ⟨⟨sized, signed⟩, there⟩ := List.forall_mem_cons.mp each
    -- The row of the head finds its columns free.
    have here : layRow (columns.slacks + columns.artificials) (columns.real + artificial)
        (entryOf (columns.decisions + slack) equation) =
          .ok ((equation.row columns slack artificial).coefficients,
            (equation.row columns slack artificial).basic) := by
      refine layRow_ok sized signed (fun nonzero => ?_) fun absent => ?_
      · rw [List.countP_cons_of_pos (by simpa using nonzero)] at slacks
        omega
      · rw [List.countP_cons_of_pos (by simpa using absent)] at artificials
        omega
    -- What the head takes is no longer there for the tail.
    have slacksLeft : (if equation.slack = 0 then slack else slack + 1) +
        equations.countP (·.slack ≠ 0) ≤ columns.slacks := by
      rw [List.countP_cons] at slacks
      split
      · omega
      · rename_i nonzero
        simp only [decide_eq_true (show equation.slack ≠ 0 from nonzero), if_true] at slacks
        omega
    have artificialsLeft : (if equation.slackIsBasic then artificial else artificial + 1) +
        equations.countP (!·.slackIsBasic) ≤ columns.artificials := by
      rw [List.countP_cons] at artificials
      split
      · omega
      · rename_i absent
        simp only [absent, Bool.not_false, if_true] at artificials
        omega
    -- The counters move on where the head has taken a column.
    have nextSlack : (if equation.slack = 0 then columns.decisions + slack
        else columns.decisions + slack + 1) =
          columns.decisions + if equation.slack = 0 then slack else slack + 1 := by
      split <;> rfl
    have nextArtificial : (if (entryOf (columns.decisions + slack) equation).slackIsBasic
        then columns.real + artificial else columns.real + artificial + 1) =
          columns.real + if equation.slackIsBasic then artificial else artificial + 1 := by
      cases basic : equation.slackIsBasic <;> simp [entryOf, basic, Nat.add_assoc]
    rw [entriesOf, layAll, here, ok_bind, nextSlack]
    simp only [nextArtificial, ih _ _ there slacksLeft artificialsLeft, ok_bind, layRows,
      List.map_cons, Equation.row_rhs]
    rfl

end Strict

end CycleSchedule
