import CycleSchedule.Proofs.Reservation.Calls
import Mathlib.Order.Bounds.Basic

/-! The search for a free window finds the first one there is. A search that leaps over the windows
that a full cycle spoils comes to the same one. -/

namespace CycleSchedule

namespace ReservationTable

variable {table : ReservationTable Int} {start cycle first slot : Int}

/-- The last cycle of a window in which all instances are taken, if there is one. -/
def lastFull? (table : ReservationTable Int) (start : Int) : Option Int :=
  ((windowCycles table.width start).filter fun cycle => !table.hasRoom cycle).getLast?

/-- A search that comes to an end at the first free window it meets, and from one that is not free
goes on right after the last full cycle in it. -/
inductive Leaps (table : ReservationTable Int) : Int → Int → Prop
  | stop {start : Int} (free : table.lastFull? start = none) : Leaps table start start
  | leap {start full slot : Int} (taken : table.lastFull? start = some full)
      (rest : Leaps table (full + 1) slot) : Leaps table start slot

/-- A window without a full cycle is free. -/
theorem lastFull?_eq_none_iff (width : 1 ≤ table.width) :
    table.lastFull? start = none ↔ table.isAvailable start = true := by
  simp only [lastFull?, List.getLast?_eq_none_iff, List.filter_eq_nil_iff, mem_windowCycles,
    Bool.not_eq_true', Bool.not_eq_false, isAvailable_iff_room width, and_imp]
  exact forall_congr' fun cycle => forall₂_congr fun _ _ => decide_eq_true_iff

/-- The last full cycle of a window is one of its cycles, and it is full. -/
theorem full_of_lastFull? {full : Int} (taken : table.lastFull? start = some full) :
    (start ≤ full ∧ full < start + table.width) ∧ table.limit ≤ (table.usage full : Int) := by
  obtain ⟨inside, isFull⟩ := List.mem_filter.mp (List.mem_of_getLast? taken)
  refine ⟨mem_windowCycles.mp inside, ?_⟩
  simpa [hasRoom] using isFull

/-- A full cycle spoils every window that holds it, so a free one does not start just before it. -/
theorem lt_of_isAvailable (available : table.isAvailable slot = true)
    (full : table.limit ≤ (table.usage cycle : Int)) (before : cycle < slot + table.width) :
    cycle < slot := by
  by_contra after
  exact absurd (usage_lt_of_isAvailable available (not_lt.mp after) before) (not_lt.mpr full)

/-- A search that leaps misses no free window. -/
theorem Leaps.isLeast (leaps : table.Leaps first slot) (width : 1 ≤ table.width) :
    IsLeast {start | first ≤ start ∧ table.isAvailable start = true} slot := by
  -- The induction is on the leaps: none of them goes beyond a free window.
  induction leaps with
  | stop free =>
    exact ⟨⟨le_rfl, (lastFull?_eq_none_iff width).mp free⟩, fun start inside => inside.1⟩
  | leap taken _ ih =>
    obtain ⟨⟨after, before⟩, full⟩ := full_of_lastFull? taken
    obtain ⟨⟨later, available⟩, least⟩ := ih
    refine ⟨⟨by omega, available⟩, fun start inside => least ⟨?_, inside.2⟩⟩
    have from_ := inside.1
    have beyond := lt_of_isAvailable inside.2 full (by omega)
    omega

/-- As long as there is a free window, a search that leaps comes to an end. -/
theorem exists_leaps (later : first ≤ slot) (available : table.isAvailable slot = true) :
    ∃ found, table.Leaps first found := by
  -- The induction is on the way to the free window, which each leap makes shorter.
  induction distance : (slot - first).toNat using Nat.strong_induction_on generalizing first with
  | _ distance ih =>
    cases taken : table.lastFull? first with
    | none => exact ⟨first, .stop taken⟩
    | some full =>
      obtain ⟨⟨after, before⟩, isFull⟩ := full_of_lastFull? taken
      have short := lt_of_isAvailable available isFull (by omega)
      obtain ⟨found, rest⟩ := ih (slot - (full + 1)).toNat (by omega) (by omega) rfl
      exact ⟨found, .leap taken rest⟩

/-- The search always finds a window, the first free one. -/
theorem Keeps.exists_isLeast (keeps : table.Keeps) (first : Int) :
    ∃ slot, table.nextAvailable first = some slot ∧
      IsLeast {start | first ≤ start ∧ table.isAvailable start = true} slot := by
  obtain ⟨slot, found, later, available⟩ := keeps.exists_nextAvailable first
  refine ⟨slot, found, ⟨later, available⟩, fun start inside => ?_⟩
  -- Some cycle of any window before is full, so that the window is not free.
  by_contra early
  obtain ⟨cycle, after, before, full⟩ := keeps.exists_full found inside.1 (not_le.mp early)
  exact absurd (usage_lt_of_isAvailable inside.2 after before) (not_lt.mpr full)

/-- A search that leaps finds the same window. -/
theorem Keeps.leaps (keeps : table.Keeps) (found : table.nextAvailable first = some slot) :
    table.Leaps first slot := by
  obtain ⟨_, same, isLeast⟩ := keeps.exists_isLeast first
  obtain rfl := Option.some.inj (found.symm.trans same)
  -- Leaps lead to a first free window too, and there is only one.
  obtain ⟨other, leaps⟩ := exists_leaps isLeast.1.1 isLeast.1.2
  rwa [isLeast.unique (leaps.isLeast keeps.width)]

end ReservationTable

/-- On the table of a limited operator type, after any row of reservations, those that were refused
included, the search from any cycle on comes to an end at the first free window, and so does the one
that leaps to the cycle after the last full one of a window as long as there is one. -/
theorem nextAvailable_is_least {operatorType : OperatorType Int} {limit : Int}
    (limited : operatorType.limit = some limit) (positive : 1 ≤ limit)
    (calls : List (String × Int)) (first : Int) :
    ∃ fresh : ReservationTable Int, ReservationTable.new operatorType = .ok fresh ∧
      ∃ slot, (fresh.attemptAll calls).nextAvailable first = some slot ∧
        IsLeast {start | first ≤ start ∧ (fresh.attemptAll calls).isAvailable start = true} slot ∧
        (fresh.attemptAll calls).Leaps first slot := by
  refine ⟨_, ReservationTable.new_ok limited, ?_⟩
  -- The fresh table keeps its limit, and so does every table that calls make of it.
  have new : ReservationTable.Keeps ⟨operatorType.name, max operatorType.latency 1, limit, []⟩ :=
    ReservationTable.keeps_nil positive
  have keeps := new.attemptAll calls
  obtain ⟨slot, found, isLeast⟩ := keeps.exists_isLeast first
  exact ⟨slot, found, isLeast, keeps.leaps found⟩

/-- Between two products of three cycles each there is a gap of two, which is too short for a third
one. -/
theorem gap_is_leapt_over :
    ∃ fresh : ReservationTable Int,
      ReservationTable.new (⟨"multiplier", 3, some 1⟩ : OperatorType Int) = .ok fresh ∧
      (fresh.attemptAll [("x", 0), ("y", 2), ("z", 5)]).nextAvailable 1 = some 8 ∧
      IsLeast {start | 1 ≤ start ∧
        (fresh.attemptAll [("x", 0), ("y", 2), ("z", 5)]).isAvailable start = true} 8 ∧
      (fresh.attemptAll [("x", 0), ("y", 2), ("z", 5)]).Leaps 1 8 := by
  have limited : (⟨"multiplier", 3, some 1⟩ : OperatorType Int).limit = some 1 := rfl
  obtain ⟨fresh, built, slot, found, isLeast, leaps⟩ :=
    nextAvailable_is_least limited le_rfl [("x", 0), ("y", 2), ("z", 5)] 1
  obtain rfl := Except.ok.inj built
  -- The least slot is unique, so evaluating the search once names it.
  obtain rfl : 8 = slot := Option.some.inj (Eq.trans (by rfl) found)
  exact ⟨_, built, found, isLeast, leaps⟩

end CycleSchedule
