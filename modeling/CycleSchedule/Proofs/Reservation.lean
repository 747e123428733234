import CycleSchedule.Proofs.Narrated
import CycleSchedule.Reservation
import Mathlib.Algebra.Order.Group.Int
import Mathlib.Data.Finset.Max
import Mathlib.Order.Lattice

/-! Reservation tables keep every cycle within the limit, and there always is a next free window. -/

namespace CycleSchedule

/-- Among the integers a whole number is itself. -/
@[simp] theorem ofInt_int (n : Int) : (Measure.ofInt n : Int) = n := rfl

/-- Every integer is whole. -/
@[simp] theorem whole?_int (n : Int) : Measure.whole? n = some n := rfl

/-- An integer measures as itself and cannot fail to. -/
@[simp] theorem measured_int (n : Int) : (Problem.measured n : Except Fault Int) = .ok n := rfl

/-- The later of two integer cycles is their maximum. -/
theorem later_int (a b : Int) : Measure.later a b = max a b := by
  show (if a < b then b else a) = max a b
  split <;> omega

/-- Operations of a type keep its instances for their latency, but for one cycle at least. -/
theorem windowWidth_int (operatorType : OperatorType Int) :
    Problem.windowWidth operatorType = .ok (max operatorType.latency 1) := by
  simp [Problem.windowWidth, Problem.heldCycles, later_int]

/-- A window more is counted in the cycles that it holds. -/
theorem occupied_cons (width start : Int) (starts : List Int) (cycle : Int) :
    occupied width (start :: starts) cycle =
      occupied width starts cycle + if start ≤ cycle ∧ cycle < start + width then 1 else 0 := by
  simp [occupied, List.countP_cons]

/-- Use only rises where a window starts, so a cycle is used no more than some start up to it. -/
theorem exists_start_occupied_le {width cycle : Int} {starts : List Int}
    (used : 0 < occupied width starts cycle) :
    ∃ start ∈ starts, start ≤ cycle ∧
      occupied width starts cycle ≤ occupied width starts start := by
  obtain ⟨some_, someMember, holds⟩ := List.countP_pos_iff.mp used
  -- Of the windows that hold the cycle, the one that starts last is met by all others.
  obtain ⟨last, lastMember, greatest⟩ := (starts.filter fun start =>
    start ≤ cycle && cycle < start + width).toFinset.exists_max_image id
      ⟨some_, List.mem_toFinset.mpr (List.mem_filter.mpr ⟨someMember, holds⟩)⟩
  simp only [List.mem_toFinset, List.mem_filter, Bool.and_eq_true, decide_eq_true_eq,
    id_eq] at lastMember greatest
  refine ⟨last, lastMember.1, lastMember.2.1, List.countP_mono_left fun other member => ?_⟩
  simp only [Bool.and_eq_true, decide_eq_true_eq]
  rintro ⟨early, late⟩
  have before := greatest other ⟨member, early, late⟩
  omega

namespace ReservationTable

variable {table : ReservationTable Int} {start cycle : Int}

/-- The cycles of a window are those from its start on that come before its end. -/
theorem mem_windowCycles {width : Int} :
    cycle ∈ windowCycles width start ↔ start ≤ cycle ∧ cycle < start + width := by
  simp only [windowCycles, List.mem_map, List.mem_range, Int.ofNat_eq_natCast]
  constructor
  -- A cycle of the window is as many steps behind its start as the difference says.
  · rintro ⟨step, inside, rfl⟩
    omega
  · rintro ⟨after, before⟩
    exact ⟨(cycle - start).toNat, by omega, by omega⟩

/-- No cycle comes twice in a window. -/
theorem count_windowCycles (width start cycle : Int) :
    (windowCycles width start).count cycle =
      if start ≤ cycle ∧ cycle < start + width then 1 else 0 := by
  -- The cycles of a window are distinct, so each of them is counted once.
  have distinct : (windowCycles width start).Nodup :=
    List.nodup_range.map fun first second same => by
      simp only [Int.ofNat_eq_natCast] at same
      omega
  split
  · rename_i inside
    exact List.count_eq_one_of_mem distinct (mem_windowCycles.mpr inside)
  · rename_i outside
    exact List.count_eq_zero_of_not_mem fun member => outside (mem_windowCycles.mp member)

/-- A table of a type that can be used, in which no cycle exceeds the limit. -/
structure Keeps (table : ReservationTable Int) : Prop where
  width : 1 ≤ table.width
  limit : 1 ≤ table.limit
  within : ∀ cycle, (table.usage cycle : Int) ≤ table.limit

/-- A window is free if there is room at its start and wherever another window starts in it. -/
theorem isAvailable_iff : table.isAvailable start = true ↔
    (table.usage start : Int) < table.limit ∧ ∀ other ∈ table.starts, start < other →
      other < start + table.width → (table.usage other : Int) < table.limit := by
  have room (cycle : Int) : table.hasRoom cycle = true ↔ (table.usage cycle : Int) < table.limit :=
    decide_eq_true_iff
  simp only [isAvailable, Bool.and_eq_true, List.all_eq_true, Bool.or_eq_true, Bool.not_eq_true',
    Bool.and_eq_false_iff, decide_eq_false_iff_not, room]
  refine and_congr_right fun _ => forall₂_congr fun other _ => ?_
  constructor
  · -- A start that is neither too early nor too late must have room.
    rintro (outside | free) after before
    · rcases outside with early | late
      · exact absurd after early
      · exact absurd before late
    · exact free
  · intro free
    -- Outside of the window nothing is asked.
    by_cases after : start < other
    · by_cases before : other < start + table.width
      · exact Or.inr (free after before)
      · exact Or.inl (Or.inr before)
    · exact Or.inl (Or.inl after)

/-- A cycle is used no more than another one that all of its windows hold too. -/
theorem usage_le {other : Int} (holds : ∀ first ∈ table.starts, first ≤ cycle →
    cycle < first + table.width → first ≤ other ∧ other < first + table.width) :
    table.usage cycle ≤ table.usage other := by
  refine List.countP_mono_left fun first member => ?_
  simp only [Bool.and_eq_true, decide_eq_true_eq]
  exact fun inside => holds first member inside.1 inside.2

/-- In a free window there is room in every cycle. -/
theorem usage_lt_of_isAvailable (available : table.isAvailable start = true)
    (after : start ≤ cycle) (before : cycle < start + table.width) :
    (table.usage cycle : Int) < table.limit := by
  obtain ⟨room, rooms⟩ := isAvailable_iff.mp available
  -- Use only rises where a window starts; the last such place in the window up to the cycle counts.
  let rises := (table.starts.filter fun first => start < first ∧ first ≤ cycle).toFinset
  have mem_rises (first : Int) :
      first ∈ rises ↔ first ∈ table.starts ∧ start < first ∧ first ≤ cycle := by
    simp [rises]
  rcases rises.eq_empty_or_nonempty with none_ | some_
  · -- No window starts on the way, so all that hold the cycle hold the start too.
    have same : table.usage cycle ≤ table.usage start := usage_le fun first member early late => by
      have outside : first ∉ rises := by simp [none_]
      rw [mem_rises] at outside
      by_contra wrong
      exact outside ⟨member, by omega, early⟩
    omega
  · -- After the last start on the way the same windows go on up to the cycle.
    obtain ⟨last, lastMember, greatest⟩ := rises.exists_max_image id some_
    obtain ⟨lastStarts, lastAfter, lastBefore⟩ := (mem_rises last).mp lastMember
    have same : table.usage cycle ≤ table.usage last := usage_le fun first member early late => by
      refine ⟨?_, by omega⟩
      by_cases inside : start < first
      · exact greatest first ((mem_rises first).mpr ⟨member, inside, early⟩)
      · omega
    have free := rooms last lastStarts lastAfter (by omega)
    omega

/-- A window is free just when there is room in every cycle of it. -/
theorem isAvailable_iff_room (width : 1 ≤ table.width) :
    table.isAvailable start = true ↔ ∀ cycle, start ≤ cycle → cycle < start + table.width →
      (table.usage cycle : Int) < table.limit := by
  constructor
  · exact fun available cycle after before => usage_lt_of_isAvailable available after before
  · -- The places that are asked are cycles of the window.
    intro room
    exact isAvailable_iff.mpr ⟨room start le_rfl (by omega), fun other _ after before =>
      room other after.le before⟩

/-- The table with one more window. -/
def hold (table : ReservationTable Int) (operation : String) (start : Int) :
    ReservationTable Int :=
  { table with held := table.held ++ [(operation, start)] }

/-- Holding a window adds one unit in use in each of its cycles and in no other. -/
theorem usage_hold (table : ReservationTable Int) (operation : String) (start cycle : Int) :
    (table.hold operation start).usage cycle =
      table.usage cycle + if start ≤ cycle ∧ cycle < start + table.width then 1 else 0 := by
  -- One more window is one more start to count.
  have windows : (table.hold operation start).starts = table.starts ++ [start] := by
    simp [starts, hold]
  rw [usage, occupied, windows, List.countP_append, List.countP_singleton]
  simp only [Bool.and_eq_true, decide_eq_true_eq]
  rfl

/-- A free window can be taken without exceeding the limit anywhere. -/
theorem Keeps.hold (keeps : table.Keeps) (available : table.isAvailable start = true)
    (operation : String) : (table.hold operation start).Keeps where
  width := keeps.width
  limit := keeps.limit
  within cycle := by
    -- Inside of the new window there was room for one more, outside nothing changes.
    rw [usage_hold]
    show _ ≤ table.limit
    split
    · rename_i inside
      have room := usage_lt_of_isAvailable available inside.1 inside.2
      push_cast
      omega
    · have old := keeps.within cycle
      omega

/-- A reservation that is available succeeds and holds its window. -/
theorem outcome_reserve (available : table.isAvailable start = true) (operation : String) :
    (table.reserve operation start).outcome = .ok (table.hold operation start) := by
  rw [reserve, if_pos available]
  rfl

/-- A table of a limited type can be set up, and nothing is used in it. -/
theorem new_ok {operatorType : OperatorType Int} {limit : Int}
    (limited : operatorType.limit = some limit) :
    -- Everything in a new table comes from the type, and its limit is given.
    ReservationTable.new operatorType =
      .ok ⟨operatorType.name, max operatorType.latency 1, limit, []⟩ := by
  rw [ReservationTable.new, limited]
  simp only [windowWidth_int, ok_bind, measured_int]
  rfl

/-- An empty table keeps to its limit. -/
theorem keeps_nil {name : String} {latency limit : Int} (positive : 1 ≤ limit) :
    Keeps ⟨name, max latency 1, limit, []⟩ where
  width := le_max_right _ _
  limit := positive
  -- Nothing is in use yet.
  within cycle := by
    show (0 : Int) ≤ limit
    omega

/-- Where all windows have ended there is room. -/
theorem Keeps.isAvailable_of_ended (keeps : table.Keeps)
    (ended : ∀ first ∈ table.starts, first + table.width ≤ start) :
    table.isAvailable start = true := by
  have width := keeps.width
  have limit := keeps.limit
  rw [isAvailable_iff]
  constructor
  · -- No window holds the start any more, and the limit is one at least.
    have unused : table.usage start = 0 := by
      refine List.countP_eq_zero.mpr fun first member => ?_
      have past := ended first member
      simp only [Bool.and_eq_true, decide_eq_true_eq, not_and]
      omega
    omega
  · -- No window starts after it.
    intro other member after
    have past := ended other member
    omega

/-- Where the search for a window looks: at the first cycle asked for and, after it, wherever
another window ends. -/
def SearchPlace (table : ReservationTable Int) (first place : Int) : Prop :=
  place = first ∨ first < place ∧ ∃ other ∈ table.starts, other + table.width = place

/-- The list that the search runs over holds the search places and nothing else. -/
theorem mem_searchPlaces {first place : Int} :
    place ∈ first :: (table.starts.map (· + table.width)).filter (first < ·) ↔
      table.SearchPlace first place := by
  simp only [List.mem_filter, List.mem_cons, List.mem_map, decide_eq_true_eq, SearchPlace]
  rw [and_comm]

/-- The search finds the first of these places at which a window is free. -/
theorem nextAvailable_eq_some_iff {first slot : Int} :
    table.nextAvailable first = some slot ↔
      (table.SearchPlace first slot ∧ table.isAvailable slot = true) ∧
        ∀ place, table.SearchPlace first place → table.isAvailable place = true →
          slot ≤ place := by
  -- The search takes the least of the places that are available.
  rw [nextAvailable, List.min?_eq_some_iff, List.mem_filter, mem_searchPlaces]
  refine and_congr_right fun _ => forall_congr' fun place => ?_
  rw [List.mem_filter, mem_searchPlaces, and_imp]

/-- There always is a next free window, and it is not before the first cycle asked for. -/
theorem Keeps.exists_nextAvailable (keeps : table.Keeps) (first : Int) :
    ∃ slot, table.nextAvailable first = some slot ∧ first ≤ slot ∧
      table.isAvailable slot = true := by
  -- After the last end of a window there is room for sure.
  obtain ⟨last, lastMember, greatest⟩ := (first :: (table.starts.map (· + table.width)).filter
    (first < ·)).toFinset.exists_max_image id ⟨first, by simp⟩
  have free : table.isAvailable last = true := keeps.isAvailable_of_ended fun start member => by
    by_cases late : first < start + table.width
    · exact greatest _ (List.mem_toFinset.mpr (mem_searchPlaces.mpr
        (Or.inr ⟨late, start, member, rfl⟩)))
    · have least := greatest first (by simp)
      simp only [id_eq] at least
      omega
  -- So some place is free, and the search takes the earliest one.
  obtain ⟨slot, found⟩ := Option.isSome_iff_exists.mp (List.isSome_min?_of_mem
    (List.mem_filter.mpr ⟨List.mem_toFinset.mp lastMember, free⟩))
  obtain ⟨⟨place, available⟩, _⟩ := nextAvailable_eq_some_iff.mp found
  refine ⟨slot, found, ?_, available⟩
  rcases place with same | later
  · exact same.ge
  · exact later.1.le

/-- From one cycle on no window ends up to another one, so that what holds a cycle between the two
holds the later one as well. -/
theorem usage_le_of_no_end {last earlier : Int} (inside : last ≤ cycle) (before : cycle ≤ earlier)
    (none_ : ∀ other ∈ table.starts, last < other + table.width → earlier < other + table.width) :
    table.usage cycle ≤ table.usage earlier :=
  usage_le fun other member _ late => ⟨by omega, none_ other member (by omega)⟩

/-- Between the first cycle asked for and the next free window no window is free: in some cycle of
it all instances are taken. -/
theorem Keeps.exists_full (keeps : table.Keeps) {first slot earlier : Int}
    (found : table.nextAvailable first = some slot) (after : first ≤ earlier)
    (before : earlier < slot) :
    ∃ cycle, earlier ≤ cycle ∧ cycle < earlier + table.width ∧
      table.limit ≤ (table.usage cycle : Int) := by
  by_contra room
  push Not at room
  -- The search has looked at places up to the window, the first cycle at least; take the last one.
  obtain ⟨last, lastMember, greatest⟩ := ((first :: (table.starts.map (· + table.width)).filter
    (first < ·)).filter (· ≤ earlier)).toFinset.exists_max_image id ⟨first, by simp [after]⟩
  simp only [List.mem_toFinset, List.mem_filter, mem_searchPlaces, decide_eq_true_eq, id_eq,
    and_imp] at lastMember greatest
  obtain ⟨lastPlace, lastBefore⟩ := lastMember
  -- No window ends between it and the window that is asked for.
  have none_ : ∀ other ∈ table.starts, last < other + table.width →
      earlier < other + table.width := by
    intro other member late
    by_contra ended
    have firstBefore := greatest first (Or.inl rfl) after
    have latest := greatest (other + table.width) (Or.inr ⟨by omega, other, member, rfl⟩)
      (not_lt.mp ended)
    omega
  -- So there is room all the way from there, and the search would have stopped at that place.
  have free : table.isAvailable last = true := by
    refine (isAvailable_iff_room keeps.width).mpr fun cycle afterLast beforeEnd => ?_
    by_cases inside : earlier ≤ cycle
    · exact room cycle inside (by omega)
    · have fewer := usage_le_of_no_end afterLast (not_le.mp inside).le none_
      have wide := keeps.width
      have here := room earlier le_rfl (by omega)
      omega
  have stopped := (nextAvailable_eq_some_iff.mp found).2 last lastPlace free
  omega

/-- How many windows hold a cycle besides those of one operation. -/
def usageBeside (table : ReservationTable Int) (operation : String) (cycle : Int) : Nat :=
  table.held.countP fun entry =>
    entry.1 ≠ operation && (entry.2 ≤ cycle && cycle < entry.2 + table.width)

/-- A window is barred for an operation if in some cycle of it others take all instances. -/
def Barred (table : ReservationTable Int) (operation : String) (first : Int) : Prop :=
  ∃ cycle, first ≤ cycle ∧ cycle < first + table.width ∧
    table.limit ≤ (table.usageBeside operation cycle : Int)

variable {operation : String} {first : Int}

/-- As long as an operation has no window, all windows are those of others. -/
theorem usage_le_usageBeside (absent : operation ∉ table.held.map (·.1)) (cycle : Int) :
    table.usage cycle ≤ table.usageBeside operation cycle := by
  -- Every window of the table belongs to another operation, so all of them count.
  rw [usage, occupied, starts, List.countP_map]
  refine List.countP_mono_left fun entry member holds => ?_
  have other : entry.1 ≠ operation := fun same =>
    absent (same ▸ List.mem_map_of_mem member)
  simpa [other] using holds

/-- Before the next free window every window is barred for an operation that has none. -/
theorem Keeps.barred (keeps : table.Keeps) {wanted slot : Int}
    (found : table.nextAvailable wanted = some slot) (absent : operation ∉ table.held.map (·.1))
    (after : wanted ≤ first) (before : first < slot) : table.Barred operation first := by
  obtain ⟨cycle, afterFirst, beforeEnd, full⟩ := keeps.exists_full found after before
  have beside := usage_le_usageBeside absent cycle
  exact ⟨cycle, afterFirst, beforeEnd, full.trans (by exact_mod_cast beside)⟩

/-- What is barred stays so with one more window. -/
theorem Barred.hold (barred : table.Barred operation first) (other : String) (start : Int) :
    (table.hold other start).Barred operation first := by
  -- The cycle that bars the window stays full, since windows are only added.
  obtain ⟨cycle, after, before, full⟩ := barred
  have more : table.usageBeside operation cycle ≤
      (table.hold other start).usageBeside operation cycle :=
    (List.sublist_append_left table.held [(other, start)]).countP_le
  exact ⟨cycle, after, before, full.trans (by exact_mod_cast more)⟩

end ReservationTable

end CycleSchedule
