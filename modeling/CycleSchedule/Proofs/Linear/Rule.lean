import CycleSchedule.Proofs.Linear.Pivot

/-! The columns that enter and the rows that are left: what the lowest-column rule chooses, and what
it means if it finds nothing to choose. -/

namespace CycleSchedule.Tableau

variable {width : Nat} {tableau : Tableau} {allowed : Nat → Bool} {column index : Nat}

/-- The entering column is the first allowed one with a negative cost. -/
theorem enteringColumn_some (chosen : tableau.enteringColumn allowed = some column) :
    column < tableau.reduced.length ∧ allowed column = true ∧
      tableau.reduced.getD column 0 < 0 ∧
      ∀ earlier < column, allowed earlier = true → 0 ≤ tableau.reduced.getD earlier 0 := by
  -- The search goes through the columns in order, so all earlier ones were passed over.
  unfold enteringColumn at chosen
  obtain ⟨entry, found, same⟩ := Option.map_eq_some_iff.mp chosen
  obtain ⟨holds, place, within, located, earlier⟩ := List.find?_eq_some_iff_getElem.mp found
  rw [List.getElem_zipIdx] at located
  subst located
  have place_ : place = column := by simpa using same
  subst place_
  have inside : place < tableau.reduced.length := by simpa using within
  simp only [Nat.zero_add, Bool.and_eq_true, decide_eq_true_eq] at holds
  refine ⟨inside, holds.1, ?_, ?_⟩
  · rw [List.getD_eq_getElem _ _ inside]
    exact holds.2
  · -- An earlier column that is allowed was passed over for its cost.
    intro before below permitted
    have skipped := earlier before below
    rw [List.getElem_zipIdx] at skipped
    simp only [Nat.zero_add, permitted, Bool.true_and, Bool.not_eq_true',
      decide_eq_false_iff_not, not_lt] at skipped
    rw [List.getD_eq_getElem _ _ (by omega)]
    exact skipped

/-- Without an entering column no allowed column has a negative cost. -/
theorem enteringColumn_none (nothing : tableau.enteringColumn allowed = none) :
    ∀ column < tableau.reduced.length, allowed column = true →
      0 ≤ tableau.reduced.getD column 0 := by
  -- Every allowed column was looked at and passed over.
  intro column within permitted
  unfold enteringColumn at nothing
  have absent := List.find?_eq_none.mp (Option.map_eq_none_iff.mp nothing)
    (tableau.reduced[column], column) (List.mem_zipIdx_iff_getElem?.mpr (by simp [within]))
  rw [List.getD_eq_getElem _ _ within]
  simpa [permitted] using absent

/-- A bound is no tighter than one of a lower ratio, or of the same ratio and no higher column. -/
theorem not_tighter_iff {a b : Bound} :
    ¬ a.tighter b = true ↔ b.ratio < a.ratio ∨ b.ratio = a.ratio ∧ b.basic ≤ a.basic := by
  simp only [Bound.tighter, Bool.or_eq_true, Bool.and_eq_true, decide_eq_true_eq, not_or, not_and,
    not_lt]
  -- The order is by ratio first and by column among equal ratios.
  constructor
  · rintro ⟨atMost, tie⟩
    rcases lt_or_eq_of_le atMost with less | same
    · exact Or.inl less
    · exact Or.inr ⟨same, tie same.symm⟩
  · rintro (less | ⟨same, lower⟩)
    · exact ⟨less.le, fun same => absurd same less.ne'⟩
    · exact ⟨same.le, fun _ => lower⟩

/-- The best bound found so far exists if another one does, which then is no tighter. -/
private def Covers (best other : Option Bound) : Prop :=
  ∀ a, other = some a → ∃ b, best = some b ∧ ¬ a.tighter b = true

/-- A bound is at least as tight as itself. -/
private theorem Covers.refl (bound : Option Bound) : Covers bound bound := by
  intro a same
  exact ⟨a, same, not_tighter_iff.mpr (Or.inr ⟨rfl, le_rfl⟩)⟩

/-- Of three bounds in order the first is at least as tight as the last. -/
private theorem Covers.trans {a b c : Option Bound} (first : Covers a b) (second : Covers b c) :
    Covers a c := by
  -- Of two comparisons one by ratio decides; two ties make a tie.
  intro z found
  obtain ⟨y, foundY, zy⟩ := second z found
  obtain ⟨x, foundX, yx⟩ := first y foundY
  refine ⟨x, foundX, not_tighter_iff.mpr ?_⟩
  rcases not_tighter_iff.mp zy with zy | ⟨zy, lower⟩ <;>
    rcases not_tighter_iff.mp yx with yx | ⟨yx, lower'⟩
  · exact Or.inl (yx.trans zy)
  · exact Or.inl (yx ▸ zy)
  · exact Or.inl (zy ▸ yx)
  · exact Or.inr ⟨yx.trans zy, lower'.trans lower⟩

/-- The tighter of two bounds is one of them. -/
theorem tightest_eq (best next : Option Bound) :
    tightest best next = best ∨ tightest best next = next := by
  cases best with
  | none => exact Or.inr rfl
  | some a =>
    cases next with
    | none => exact Or.inl rfl
    -- Of two bounds that are there, one is returned as it is.
    | some b => by_cases tighter : b.tighter a = true <;> simp [tightest, tighter]

/-- The tighter of two bounds is at least as tight as the first. -/
private theorem tightest_left (best next : Option Bound) : Covers (tightest best next) best := by
  -- The next bound is taken only if it is tighter, and then it covers the best one so far.
  intro a same
  subst same
  cases next with
  | none => exact Covers.refl _ a rfl
  | some b =>
    by_cases tighter : b.tighter a = true
    · refine ⟨b, by simp [tightest, tighter], not_tighter_iff.mpr ?_⟩
      simp only [Bound.tighter, Bool.or_eq_true, Bool.and_eq_true, decide_eq_true_eq] at tighter
      exact tighter.imp id fun tie => ⟨tie.1, tie.2.le⟩
    · simpa [tightest, tighter] using Covers.refl (some a) a rfl

/-- The tighter of two bounds is at least as tight as the second. -/
private theorem tightest_right (best next : Option Bound) : Covers (tightest best next) next := by
  -- The best bound so far is kept only if the next one is not tighter.
  intro b same
  subst same
  cases best with
  | none => exact Covers.refl _ b rfl
  | some a =>
    by_cases tighter : b.tighter a = true
    · simpa [tightest, tighter] using Covers.refl (some b) b rfl
    · exact ⟨a, by simp [tightest, tighter], tighter⟩

/-- The tightest of several bounds is one of them, and none of them is tighter. -/
private theorem foldl_tightest {α : Type} (bound : α → Option Bound) (items : List α)
    (start : Option Bound) :
    let best := items.foldl (fun best item => tightest best (bound item)) start
    (best = start ∨ ∃ item ∈ items, best = bound item) ∧ Covers best start ∧
      ∀ item ∈ items, Covers best (bound item) := by
  -- The induction is on the items; the best bound so far stands for the items before.
  induction items generalizing start with
  | nil => exact ⟨Or.inl rfl, Covers.refl _, by simp⟩
  | cons head tail ih =>
    obtain ⟨origin, fromStart, fromTail⟩ := ih (tightest start (bound head))
    refine ⟨?_, fromStart.trans (tightest_left _ _), ?_⟩
    · -- The best bound is the start, that of the first item or that of a later one.
      rcases origin with first | ⟨item, member, same⟩
      · rcases tightest_eq start (bound head) with old | new
        · exact Or.inl (first.trans old)
        · exact Or.inr ⟨head, by simp, first.trans new⟩
      · exact Or.inr ⟨item, List.mem_cons_of_mem _ member, same⟩
    · -- It covers the first item through the new start, and the others by induction.
      intro item member
      rcases List.mem_cons.mp member with rfl | member
      · exact fromStart.trans (tightest_right _ _)
      · exact fromTail item member

/-- The row left sets the tightest bound; among equal ones it has the lowest basic column. -/
theorem leavingRow_some (chosen : tableau.leavingRow column = some index) :
    ∃ row, tableau.rows[index]? = some row ∧ 0 < row.entry column ∧
      ∀ other ∈ tableau.rows, 0 < other.entry column →
        row.rhs / row.entry column < other.rhs / other.entry column ∨
          row.rhs / row.entry column = other.rhs / other.entry column ∧
            row.basic ≤ other.basic := by
  -- The choice is the tightest of the bounds that rows with a positive entry set.
  unfold leavingRow at chosen
  obtain ⟨best, found, same⟩ := Option.map_eq_some_iff.mp chosen
  obtain ⟨origin, _, covers⟩ := foldl_tightest
    (fun entry : Row × Nat => boundOf? column entry.1 entry.2) tableau.rows.zipIdx none
  simp only [found] at origin covers
  rcases origin with absurd_ | ⟨⟨row, place⟩, member, bounded⟩
  · -- No bound was given at the start.
    simp at absurd_
  · have located := List.mem_zipIdx_iff_getElem?.mp member
    simp only [boundOf?] at bounded
    by_cases positive : 0 < row.entry column
    · simp only [if_pos positive, Option.some.injEq] at bounded
      subst bounded
      have place_ : place = index := same
      subst place_
      -- Every other row with a positive entry has set a bound that is not tighter.
      refine ⟨row, located, positive, fun other otherMember otherPositive => ?_⟩
      obtain ⟨at_, otherLocated⟩ := List.mem_iff_getElem?.mp otherMember
      obtain ⟨b, equal, loose⟩ := covers (other, at_)
        (List.mem_zipIdx_iff_getElem?.mpr otherLocated)
        ⟨at_, other.rhs / other.entry column, other.basic⟩ (by simp [boundOf?, otherPositive])
      have equal := Option.some.inj equal
      subst equal
      exact not_tighter_iff.mp loose
    · simp [positive] at bounded

/-- Without a row to leave no coefficient of the column is positive. -/
theorem leavingRow_none (nothing : tableau.leavingRow column = none) :
    ∀ row ∈ tableau.rows, row.entry column ≤ 0 := by
  -- A row with a positive entry would have set a bound.
  intro row member
  by_contra positive
  rw [not_le] at positive
  unfold leavingRow at nothing
  have absent := Option.map_eq_none_iff.mp nothing
  obtain ⟨_, _, covers⟩ := foldl_tightest
    (fun entry : Row × Nat => boundOf? column entry.1 entry.2) tableau.rows.zipIdx none
  simp only [absent] at covers
  -- The bound of this row would have to be covered by none.
  obtain ⟨at_, located⟩ := List.mem_iff_getElem?.mp member
  obtain ⟨b, equal, _⟩ := covers (row, at_) (List.mem_zipIdx_iff_getElem?.mpr located)
    ⟨at_, row.rhs / row.entry column, row.basic⟩ (by simp [boundOf?, positive])
  simp at equal

end CycleSchedule.Tableau
