import CycleSchedule.Proofs.Linear.Progress
import Mathlib.Data.Finset.Powerset

/-! Pivots by the lowest-column rule never come back to the same basic columns, so they come to an
end. -/

namespace CycleSchedule.Tableau

variable {width length : Nat} {allowed : Nat → Bool} {tableaux : Nat → Tableau}
  {enters : Nat → Nat} {leaves : Nat → Row}

/-- If a column enters one of two tableaux of the same program and value, the other one has a cost
that shows the improvement along the ray. -/
theorem SameProgram.exists_cost_neg {tableau next : Tableau} (program : SameProgram tableau next)
    (proper : tableau.Proper width) (nextProper : next.Proper width) {column : Nat}
    (entering : tableau.enteringColumn allowed = some column) (free : column ∉ tableau.basics) :
    ∃ place < width,
      next.reduced.getD place 0 * (tableau.ray column 1 place - tableau.columnValue place) < 0 := by
  -- The ray costs less than the basic point, and it does so in both tableaux.
  obtain ⟨within, _, negative, _⟩ := enteringColumn_some entering
  have inside : column < width := proper.priced.sized ▸ within
  have rayCost := program.cost _ (proper.canonical.solves_ray inside free 1)
  have pointCost := program.cost _ proper.canonical.solves_columnValue
  rw [proper.priced.cost_ray inside free, mul_one] at rayCost
  rw [proper.priced.cost_columnValue] at pointCost
  have difference := combine_sub next.reduced (tableau.ray column 1) tableau.columnValue
  simp only [Tableau.cost] at rayCost pointCost
  have total : combine next.reduced
      (fun place => tableau.ray column 1 place - tableau.columnValue place) < 0 := by linarith
  obtain ⟨place, below, product⟩ := exists_neg_of_combine_neg total
  exact ⟨place, nextProper.priced.sized ▸ below, product⟩

/-- A series of pivots by the rule, with the column that enters and the row left at each time. -/
structure Series (width : Nat) (allowed : Nat → Bool) (length : Nat) (tableaux : Nat → Tableau)
    (enters : Nat → Nat) (leaves : Nat → Row) : Prop where
  proper : (tableaux 0).Proper width
  step : ∀ time < length,
    Step allowed (tableaux time) (tableaux (time + 1)) (enters time) (leaves time)

namespace Series

/-- Every tableau of a series is proper. -/
theorem proper_at (series : Series width allowed length tableaux enters leaves) :
    ∀ time ≤ length, (tableaux time).Proper width := by
  -- One step after the other keeps the tableau proper.
  intro time
  induction time with
  | zero => exact fun _ => series.proper
  | succ time ih => exact fun within => (series.step time within).proper (ih (by omega))

/-- All tableaux of a series have the same solutions at the same costs. -/
theorem sameProgram (series : Series width allowed length tableaux enters leaves) :
    ∀ time ≤ length, SameProgram (tableaux 0) (tableaux time) := by
  -- By induction on the time: every step keeps the program.
  intro time
  induction time with
  | zero => exact fun _ => SameProgram.refl _
  | succ time ih =>
    intro within
    have step := series.step time within
    exact (ih (by omega)).trans (step.sameProgram (series.proper_at time (by omega)))

/-- The value never rises in a series. -/
theorem value_le (series : Series width allowed length tableaux enters leaves) {early : Nat} :
    ∀ late, early ≤ late → late ≤ length → (tableaux late).value ≤ (tableaux early).value := by
  -- The induction is on the later time, from the earlier one on.
  intro late
  induction late with
  | zero =>
    intro ordered _
    rw [Nat.le_zero.mp ordered]
  | succ late ih =>
    intro ordered within
    rcases Nat.eq_or_lt_of_le ordered with same | before
    · rw [same]
    · have last := (series.step late within).value_le (series.proper_at late (by omega))
      exact last.trans (ih (by omega) (by omega))

/-- What remains of a series is a series. -/
theorem drop (series : Series width allowed length tableaux enters leaves) {start : Nat}
    (within : start ≤ length) : Series width allowed (length - start)
      (fun time => tableaux (start + time)) (fun time => enters (start + time))
      (fun time => leaves (start + time)) where
  proper := series.proper_at start within
  step time before := series.step (start + time) (by omega)

/-- The highest column that enters, with a time at which it enters and one at which it leaves. -/
structure Highest (length : Nat) (enters : Nat → Nat) (leaves : Nat → Row) (entry exit : Nat) :
    Prop where
  entryWithin : entry < length
  exitWithin : exit < length
  leaving : (leaves exit).basic = enters entry
  top : ∀ time < length, enters time ≤ enters entry

/-- When the highest column enters, the one that it makes way for later has no negative cost. -/
theorem Highest.cost_newcomer_nonneg {entry exit : Nat}
    (highest : Highest length enters leaves entry exit)
    (series : Series width allowed length tableaux enters leaves) :
    0 ≤ (tableaux entry).reduced.getD (enters exit) 0 := by
  have exitStep := series.step exit highest.exitWithin
  obtain ⟨_, _, _, preferred⟩ :=
    enteringColumn_some (series.step entry highest.entryWithin).entering
  -- It is a lower column, since the highest one is basic while it enters.
  have newcomer := exitStep.not_mem_basics (series.proper_at exit highest.exitWithin.le)
  have below : enters exit < enters entry := by
    refine lt_of_le_of_ne (highest.top exit highest.exitWithin) fun equal => newcomer ?_
    rw [equal, ← highest.leaving]
    exact mem_basics.mpr ⟨_, exitStep.member, rfl⟩
  -- So it would have been preferred.
  exact preferred (enters exit) below (enteringColumn_some exitStep.entering).2.1

section Recurrent

variable (series : Series width allowed length tableaux enters leaves)
  (recurs : (tableaux length).basics = (tableaux 0).basics)

include series recurs

/-- The value stays the same in a series that comes back. -/
theorem value_eq : ∀ time ≤ length, (tableaux time).value = (tableaux 0).value := by
  -- The basic columns settle the basic point, and with it the value.
  have first := series.proper
  have last := series.proper_at length le_rfl
  have program := series.sameProgram length le_rfl
  have solves := (program.solves _).mp last.canonical.solves_columnValue
  have point := first.canonical.solution_unique solves first.canonical.solves_columnValue
    fun column _ free => by
      rw [columnValue_of_not_mem (recurs ▸ free), columnValue_of_not_mem free]
  -- The value is the cost of the basic point, which is the same at both ends.
  have ends : (tableaux length).value = (tableaux 0).value := by
    rw [← last.priced.cost_columnValue, program.cost _ solves, ← first.priced.cost_columnValue,
      cost, cost, combine_congr fun column within => point column (first.priced.sized ▸ within)]
  -- It never rises on the way, so it cannot have fallen.
  intro time within
  have down := series.value_le time (Nat.zero_le _) within
  have up := series.value_le length within le_rfl
  exact le_antisymm down (ends ▸ up)

/-- In a series that comes back every row left has a right-hand side of zero. -/
theorem rhs_eq_zero : ∀ time < length, (leaves time).rhs = 0 := by
  -- The value stays the same, so the entering column, which has a cost, takes the value zero.
  intro time within
  have step := series.step time within
  have change := step.value
  rw [value_eq series recurs time (by omega), value_eq series recurs (time + 1) within] at change
  have negative := (enteringColumn_some step.entering).2.2.1
  have product : (tableaux time).reduced.getD (enters time) 0 *
      ((leaves time).rhs / (leaves time).entry (enters time)) = 0 := by linarith
  rcases mul_eq_zero.mp product with zero | zero
  · exact absurd zero negative.ne
  · exact (div_eq_zero_iff.mp zero).resolve_right step.positive.ne'

/-- The basic point stays the same in a series that comes back. -/
theorem columnValue_eq : ∀ time ≤ length, ∀ column < width,
    (tableaux time).columnValue column = (tableaux 0).columnValue column := by
  intro time
  induction time with
  | zero => exact fun _ _ _ => rfl
  | succ time ih =>
    -- The basic point before the pivot solves the tableau after it, and no other point does.
    intro within column inside
    rw [← ih (by omega) column inside]
    -- Either of the columns exchanged has the value zero before and after the pivot.
    have step := series.step time within
    have before := series.proper_at time (by omega)
    have after := series.proper_at (time + 1) within
    refine after.canonical.solution_unique after.canonical.solves_columnValue
      (((step.sameProgram before).solves _).mpr before.canonical.solves_columnValue) ?_ column
      inside
    intro place _ free
    rw [columnValue_of_not_mem free]
    rw [step.basics before, Finset.mem_insert, Finset.mem_erase] at free
    by_cases left : place = (leaves time).basic
    · rw [left, before.canonical.columnValue_basic step.member]
      exact (rhs_eq_zero series recurs time within).symm
    · rw [columnValue_of_not_mem]
      exact fun basic => free (Or.inr ⟨left, basic⟩)

/-- A column that never enters a series that comes back is basic always or never. -/
theorem mem_basics_of_not_enters {column : Nat} (never : ∀ time < length, enters time ≠ column) :
    ∀ time ≤ length, column ∈ (tableaux time).basics ↔ column ∈ (tableaux 0).basics := by
  -- Without entering it can only have been basic before as well, back to the start.
  have back : ∀ late ≤ length, ∀ early ≤ late,
      column ∈ (tableaux late).basics → column ∈ (tableaux early).basics := by
    intro late
    -- By induction on the later time: the last step did not bring the column in.
    induction late with
    | zero =>
      intro _ early ordered basic
      rwa [Nat.le_zero.mp ordered]
    | succ late ih =>
      intro within early ordered basic
      rcases Nat.eq_or_lt_of_le ordered with same | before
      · rwa [same]
      · refine ih (by omega) early (by omega) ?_
        rw [(series.step late within).basics (series.proper_at late (by omega)), Finset.mem_insert,
          Finset.mem_erase] at basic
        exact (basic.resolve_left (never late within).symm).2
  intro time within
  exact ⟨back time within 0 (Nat.zero_le _), fun basic =>
    back length le_rfl time within (recurs ▸ basic)⟩

/-- A column that never leaves a series that comes back is basic always or never. -/
theorem mem_basics_of_not_leaves {column : Nat}
    (never : ∀ time < length, (leaves time).basic ≠ column) :
    ∀ time ≤ length, column ∈ (tableaux time).basics ↔ column ∈ (tableaux 0).basics := by
  -- Without leaving it stays basic to the end, which is the start again.
  have forth : ∀ late ≤ length, ∀ early ≤ late,
      column ∈ (tableaux early).basics → column ∈ (tableaux late).basics := by
    intro late
    -- By induction on the later time: the last step did not take the column out.
    induction late with
    | zero =>
      intro _ early ordered basic
      rwa [← Nat.le_zero.mp ordered]
    | succ late ih =>
      intro within early ordered basic
      rcases Nat.eq_or_lt_of_le ordered with same | before
      · rwa [← same]
      · rw [(series.step late within).basics (series.proper_at late (by omega)), Finset.mem_insert,
          Finset.mem_erase]
        exact Or.inr ⟨(never late within).symm, ih (by omega) early (by omega) basic⟩
  intro time within
  exact ⟨fun basic => recurs ▸ forth length le_rfl time within basic,
    forth time within 0 (Nat.zero_le _)⟩

/-- A column that enters a series that comes back leaves it at some time. -/
theorem exists_leaves {entry : Nat} (within : entry < length) :
    ∃ exit < length, (leaves exit).basic = enters entry := by
  by_contra never
  simp only [not_exists, not_and] at never
  -- Otherwise it would be basic always or never, but it only is after it has entered.
  have constant := mem_basics_of_not_leaves series recurs never
  have step := series.step entry within
  have proper := series.proper_at entry within.le
  have present : enters entry ∈ (tableaux (entry + 1)).basics := by
    rw [step.basics proper]
    exact Finset.mem_insert_self _ _
  exact step.not_mem_basics proper
    ((constant entry within.le).mpr ((constant (entry + 1) within).mp present))

/-- A column that is basic at one time and not at another enters at some time. -/
theorem exists_enters {column early late : Nat} (earlyWithin : early ≤ length)
    (lateWithin : late ≤ length) (basic : column ∈ (tableaux early).basics)
    (free : column ∉ (tableaux late).basics) : ∃ time < length, enters time = column := by
  -- A column that never enters cannot have left either, so it would be basic throughout.
  by_contra never
  simp only [not_exists, not_and] at never
  have constant := mem_basics_of_not_enters series recurs never
  exact free ((constant late lateWithin).mpr ((constant early earlyWithin).mp basic))

/-- A column that is basic at one time and not at another has the value zero. -/
theorem rhs_eq_zero_of_free {early late : Nat} (earlyWithin : early ≤ length)
    (lateWithin : late ≤ length) {row : Row} (member : row ∈ (tableaux early).rows)
    (free : row.basic ∉ (tableaux late).basics) : row.rhs = 0 := by
  -- The basic point is the same at both times.
  have proper := series.proper_at early earlyWithin
  have inside := proper.canonical.within row member
  rw [← proper.canonical.columnValue_basic member,
    columnValue_eq series recurs early earlyWithin _ inside,
    ← columnValue_eq series recurs late lateWithin _ inside, columnValue_of_not_mem free]

/-- There is a highest column that enters, and it leaves as well. -/
theorem exists_highest (nonempty : 0 < length) :
    ∃ entry exit, Highest length enters leaves entry exit := by
  -- Of the columns that enter, the highest one also leaves at some time.
  obtain ⟨entry, entryMember, highest⟩ :=
    (Finset.range length).exists_max_image enters ⟨0, Finset.mem_range.mpr nonempty⟩
  have entryWithin : entry < length := Finset.mem_range.mp entryMember
  obtain ⟨exit, exitWithin, leaving⟩ := exists_leaves series recurs entryWithin
  exact ⟨entry, exit, entryWithin, exitWithin, leaving,
    fun time within => highest time (Finset.mem_range.mpr within)⟩

section Highest

variable {entry exit : Nat} (highest : Highest length enters leaves entry exit)

include highest

/-- When the highest column leaves, a lower one that comes and goes as well has no positive
coefficient, as it would have been left first. -/
theorem entry_nonpos_of_lower {row : Row} (member : row ∈ (tableaux exit).rows)
    (free : row.basic ∉ (tableaux entry).basics) (lower : row.basic < enters entry) :
    row.entry (enters exit) ≤ 0 := by
  by_contra positive
  -- Both rows have the value zero, so that the rule decides by their columns.
  have zero := rhs_eq_zero_of_free series recurs highest.exitWithin.le highest.entryWithin.le
    member free
  have leftZero := rhs_eq_zero series recurs exit highest.exitWithin
  rcases (series.step exit highest.exitWithin).tightest row member (not_le.mp positive) with
    less | ⟨_, ordered⟩
  · simp [zero, leftZero] at less
  · have leaving := highest.leaving
    omega

/-- Nothing that is basic when the highest column leaves improves the objective as it enters. -/
theorem cost_mul_entry_nonpos {row : Row} (member : row ∈ (tableaux exit).rows) :
    (tableaux entry).reduced.getD row.basic 0 * row.entry (enters exit) ≤ 0 := by
  have enterStep := series.step entry highest.entryWithin
  have exitStep := series.step exit highest.exitWithin
  have exitProper := series.proper_at exit highest.exitWithin.le
  obtain ⟨_, _, improving, preferred⟩ := enteringColumn_some enterStep.entering
  by_cases still : row.basic ∈ (tableaux entry).basics
  · -- A basic column has no cost.
    obtain ⟨other, otherMember, equal⟩ := mem_basics.mp still
    rw [← equal, (series.proper_at entry highest.entryWithin.le).priced.free other otherMember,
      zero_mul]
  · -- Otherwise it has to enter at some time, so it is not higher than the highest one.
    obtain ⟨time, timeWithin, entered⟩ := exists_enters series recurs highest.exitWithin.le
      highest.entryWithin.le (mem_basics.mpr ⟨row, member, rfl⟩) still
    have permitted := (enteringColumn_some (series.step time timeWithin).entering).2.1
    rw [entered] at permitted
    rcases Nat.eq_or_lt_of_le (entered ▸ highest.top time timeWithin) with same | lower
    · -- The highest column itself falls as the other one enters, which improves nothing.
      have equal : row = leaves exit :=
        exitProper.canonical.row_unique member exitStep.member (same.trans highest.leaving.symm)
      have positive := exitStep.positive
      rw [← equal] at positive
      rw [same]
      exact mul_nonpos_of_nonpos_of_nonneg improving.le positive.le
    · exact mul_nonpos_of_nonneg_of_nonpos (preferred row.basic lower permitted)
        (entry_nonpos_of_lower series recurs highest member still lower)

end Highest

/-- No series of pivots by the lowest-column rule comes back to its first basic columns. -/
theorem not_recurs (nonempty : 0 < length) : False := by
  -- The highest column that enters is followed from a time at which it enters to one at which it
  -- leaves; the rule would have preferred a lower column at one of the two.
  obtain ⟨entry, exit, highest⟩ := exists_highest series recurs nonempty
  have enterProper := series.proper_at entry highest.entryWithin.le
  have exitStep := series.step exit highest.exitWithin
  have exitProper := series.proper_at exit highest.exitWithin.le
  have program : SameProgram (tableaux exit) (tableaux entry) :=
    (series.sameProgram exit highest.exitWithin.le).symm.trans
      (series.sameProgram entry highest.entryWithin.le)
  -- Some column improves the objective at the time of entry by growing with the one that enters
  -- at the time of exit.
  obtain ⟨place, inside, negative⟩ := program.exists_cost_neg exitProper enterProper
    exitStep.entering (exitStep.not_mem_basics exitProper)
  by_cases basic : place ∈ (tableaux exit).basics
  · obtain ⟨row, member, rfl⟩ := mem_basics.mp basic
    rw [exitProper.canonical.ray_basic member, exitProper.canonical.columnValue_basic member]
      at negative
    have none_ := cost_mul_entry_nonpos series recurs highest member
    linarith
  · rw [ray_of_not_mem basic, columnValue_of_not_mem basic, sub_zero] at negative
    split at negative
    · -- It is the column that enters at the time of exit.
      rename_i same
      have cost := highest.cost_newcomer_nonneg series
      rw [← same] at cost
      linarith
    · simp at negative

end Recurrent

/-- No two tableaux of a series have the same basic columns. -/
theorem basics_ne (series : Series width allowed length tableaux enters leaves) {early late : Nat}
    (ordered : early < late) (within : late ≤ length) :
    (tableaux late).basics ≠ (tableaux early).basics := by
  -- The part between the two would come back to its first basic columns.
  intro same
  have rest := series.drop (show early ≤ length by omega)
  have part : Series width allowed (late - early) (fun time => tableaux (early + time))
      (fun time => enters (early + time)) (fun time => leaves (early + time)) :=
    ⟨rest.proper, fun time before => rest.step time (by omega)⟩
  refine part.not_recurs ?_ (by omega)
  simpa [Nat.add_sub_cancel' ordered.le] using same

/-- A series has fewer pivots than there are sets of columns. -/
theorem length_lt (series : Series width allowed length tableaux enters leaves) :
    length < 2 ^ width := by
  -- Each of its tableaux has a set of basic columns of its own.
  by_contra long
  have card : ((Finset.range width).powerset).card < (Finset.range (length + 1)).card := by
    simp only [Finset.card_powerset, Finset.card_range]
    omega
  -- With more tableaux than sets, two of them have the same one.
  obtain ⟨first, firstMember, second, secondMember, different, same⟩ :=
    Finset.exists_ne_map_eq_of_card_lt_of_maps_to card (f := fun time => (tableaux time).basics)
      fun time member => Finset.mem_powerset.mpr
        (series.proper_at time (by simpa [Nat.lt_succ_iff] using member)).canonical.basics_subset
  rw [Finset.mem_range] at firstMember secondMember
  rcases Nat.lt_or_gt_of_ne different with before | after
  · exact series.basics_ne before (by omega) same.symm
  · exact series.basics_ne after (by omega) same

end Series

variable {tableau next : Tableau} {column : Nat} {row : Row}

/-- A series without pivots. -/
theorem Series.nil (proper : tableau.Proper width) :
    Series width allowed 0 (fun _ => tableau) (fun _ => 0) (fun _ => ⟨[], 0, 0⟩) :=
  ⟨proper, fun _ within => absurd within (Nat.not_lt_zero _)⟩

/-- A series with one more pivot in front, so that everything else comes one time later. -/
theorem Series.cons (proper : tableau.Proper width) (step : Step allowed tableau next column row)
    (series : Series width allowed length tableaux enters leaves) (start : tableaux 0 = next) :
    Series width allowed (length + 1) (fun time => time.casesOn tableau tableaux)
      (fun time => time.casesOn column enters) (fun time => time.casesOn row leaves) := by
  refine ⟨proper, fun time within => ?_⟩
  -- The new step is the first one, and all others have moved on by one.
  cases time with
  | zero =>
    show Step allowed tableau (tableaux 0) column row
    rw [start]
    exact step
  | succ time => exact series.step time (by omega)

/-- Pivoting goes through a series, until the fuel is used up or there is no pivot left to make. -/
theorem optimize_series (allowed : Nat → Bool) : ∀ fuel (tableau : Tableau),
    tableau.Proper width → ∃ length tableaux enters leaves, tableaux 0 = tableau ∧
      Series width allowed length tableaux enters leaves ∧
      tableaux length = (optimize allowed fuel tableau).tableau ∧
      ((optimize allowed fuel tableau).halt = .unfinished ∧ length = fuel ∨
        (optimize allowed fuel tableau).halt ≠ .unfinished ∧
          (tableaux length).next? allowed = none) := by
  -- The induction is on the fuel; each step of pivoting is one of the series.
  intro fuel
  induction fuel with
  | zero =>
    intro tableau proper
    exact ⟨0, _, _, _, rfl, .nil proper, rfl, Or.inl ⟨rfl, rfl⟩⟩
  | succ fuel ih =>
    intro tableau proper
    unfold optimize
    cases entering : tableau.enteringColumn allowed with
    | none =>
      -- Nothing improves the objective.
      exact ⟨0, _, _, _, rfl, .nil proper, rfl, Or.inr ⟨by simp, by simp [next?, entering]⟩⟩
    | some column =>
      dsimp only
      cases leaving : tableau.leavingRow column with
      | none =>
        -- Nothing bounds the improvement.
        exact ⟨0, _, _, _, rfl, .nil proper, rfl,
          Or.inr ⟨by simp, by simp [next?, entering, leaving]⟩⟩
      | some index =>
        obtain ⟨row, step⟩ := Step.of_choices entering leaving
        obtain ⟨length, tableaux, enters, leaves, start, series, reached, ending⟩ :=
          ih _ (step.proper proper)
        exact ⟨length + 1, _, _, _, rfl, .cons proper step series start, reached,
          ending.imp (And.imp_right (congrArg (· + 1))) id⟩

/-- More pivots than there are sets of columns are never needed. -/
theorem optimize_halt_ne_unfinished (proper : tableau.Proper width) {fuel : Nat}
    (enough : 2 ^ width ≤ fuel) : (optimize allowed fuel tableau).halt ≠ .unfinished := by
  intro unfinished
  obtain ⟨length, _, _, _, _, series, _, ending⟩ := optimize_series allowed fuel tableau proper
  -- A series that has used up the fuel would be too long.
  rcases ending with ⟨_, same⟩ | ⟨finished, _⟩
  · have bound := series.length_lt
    omega
  · exact finished unfinished

/-- Tableaux that lead on to each other by pivots, to one that leads no further; no two of them have
the same basic columns. -/
structure Run (allowed : Nat → Bool) (tableaux : Nat → Tableau) (length : Nat) : Prop where
  step : ∀ time < length, (tableaux time).next? allowed = some (tableaux (time + 1))
  ends : (tableaux length).next? allowed = none
  distinct : ∀ early late, early < late → late ≤ length →
    (tableaux early).basics ≠ (tableaux late).basics

/-- With fuel enough pivoting is such a run. -/
theorem Proper.run (proper : tableau.Proper width) (allowed : Nat → Bool) {fuel : Nat}
    (enough : 2 ^ width ≤ fuel) : ∃ tableaux length, Run allowed tableaux length ∧
      tableaux 0 = tableau ∧
      tableaux length = (Tableau.optimize allowed fuel tableau).tableau := by
  obtain ⟨length, tableaux, _, _, start, series, reached, ending⟩ :=
    optimize_series allowed fuel tableau proper
  -- The fuel is not used up, so there is no pivot left to make.
  have finished : (Tableau.optimize allowed fuel tableau).halt ≠ .unfinished :=
    optimize_halt_ne_unfinished proper enough
  refine ⟨tableaux, length, ⟨fun time within => (series.step time within).led, ?_, ?_⟩, start,
    reached⟩
  · exact (ending.resolve_left fun unfinished => finished unfinished.1).2
  · intro early late ordered within
    exact (series.basics_ne ordered within).symm

end CycleSchedule.Tableau
