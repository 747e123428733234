import CycleSchedule.Proofs.NameTable
import CycleSchedule.Proofs.Told
import CycleSchedule.Proofs.Reservation.Search

/-! Reservation tables that count in place. Over any calls, those that fail included, the counters
agree with the windows that have been entered. -/

namespace CycleSchedule

/-- A reservation table as it is stored: how many instances are taken in each cycle, and the latest
start of each operation. -/
structure Tally where
  operatorType : String
  width : Int
  limit : Int
  usage : Int → Nat
  reservations : NameTable Int

namespace Tally

open ReservationTable (windowCycles mem_windowCycles count_windowCycles)

/-- The tally of a limited type, with nothing reserved. -/
def new (operatorType : OperatorType Int) : Except Fault Tally :=
  match operatorType.limit with
  | none => .error (.rejected (.unlimitedType operatorType.name))
  | some limit =>
    .ok ⟨operatorType.name, max operatorType.latency 1, limit, fun _ => 0, []⟩

/-- Counts one more instance in a cycle. -/
def tick (usage : Int → Nat) (cycle : Int) : Int → Nat :=
  Function.update usage cycle (usage cycle + 1)

/-- Whether there is room in every cycle of a window. -/
def isAvailable (tally : Tally) (start : Int) : Bool :=
  (windowCycles tally.width start).all fun cycle => decide ((tally.usage cycle : Int) < tally.limit)

/-- What is said of a window that has been entered. -/
def announcement (tally : Tally) (operation : String) (start : Int) : Event :=
  .reserved tally.operatorType operation start (start + tally.width - 1)

/-- A call for a window that is not free fails. For any other one the cycles of the window are
counted, its start is filed, and this is told. -/
def reserve (operation : String) (start : Int) : EStateM Fault Tally Unit := do
  let tally ← get
  unless tally.isAvailable start do
    throw (Fault.rejected (.fullyUsed tally.operatorType start)).reported
  modify fun tally =>
    { tally with usage := (windowCycles tally.width start).foldl tick tally.usage }
  modify fun tally => { tally with reservations := tally.reservations.put operation start }
  -- The window stays if it turns out that what is said of it cannot be written.
  unless (tally.announcement operation start).text.isWritable do throw .unwritable

/-- What is stored after a call, be it granted or not. -/
def attempt (tally : Tally) (call : String × Int) : Tally :=
  match reserve call.1 call.2 tally with
  | .ok _ after => after
  | .error _ after => after

/-- What is stored after a row of calls. -/
def attemptAll (tally : Tally) (calls : List (String × Int)) : Tally := calls.foldl attempt tally

/-- The calls of a row that succeed. -/
def granted : Tally → List (String × Int) → List (String × Int)
  | _, [] => []
  | tally, call :: calls =>
    match reserve call.1 call.2 tally with
    | .ok _ after => call :: after.granted calls
    | .error _ after => after.granted calls

/-- The calls of a row whose windows are entered, whether the calls succeed or not. -/
def entered : Tally → List (String × Int) → List (String × Int)
  | _, [] => []
  | tally, call :: calls =>
    if tally.isAvailable call.2 then call :: (tally.attempt call).entered calls
    else (tally.attempt call).entered calls

variable {tally : Tally} {table : ReservationTable Int} {operation : String} {start cycle : Int}

/-- Counting cycles one after the other adds to each as often as it comes. -/
theorem foldl_tick (cycles : List Int) (usage : Int → Nat) (cycle : Int) :
    cycles.foldl tick usage cycle = usage cycle + cycles.count cycle := by
  -- The induction is on the cycles, from any counters to begin with.
  induction cycles generalizing usage with
  | nil => rfl
  | cons head tail ih =>
    rw [List.foldl_cons, ih, List.count_cons]
    by_cases same : head = cycle
    · -- The counter of the cycle itself has gone up by one before the others are counted.
      subst same
      simp only [tick, Function.update_self, beq_self_eq_true, if_true]
      omega
    · have different : cycle ≠ head := fun equal => same equal.symm
      simp [tick, different, same]

/-- The tally with one more window. -/
def take (tally : Tally) (operation : String) (start : Int) : Tally :=
  { tally with
    usage := (windowCycles tally.width start).foldl tick tally.usage
    reservations := tally.reservations.put operation start }

/-- Taking a window adds one unit in use in each of its cycles and in no other. -/
theorem usage_take (tally : Tally) (operation : String) (start cycle : Int) :
    (tally.take operation start).usage cycle =
      tally.usage cycle + if start ≤ cycle ∧ cycle < start + tally.width then 1 else 0 := by
  rw [← count_windowCycles]
  exact foldl_tick _ _ _

/-- A call fails before anything is counted, or else counts the whole window; then it succeeds if
this can be told. -/
theorem reserve_eq (tally : Tally) (operation : String) (start : Int) :
    reserve operation start tally =
      if tally.isAvailable start = true then
        if (tally.announcement operation start).text.isWritable = true then
          .ok () (tally.take operation start)
        else .error .unwritable (tally.take operation start)
      else .error (Fault.rejected (.fullyUsed tally.operatorType start)).reported tally := by
  have read : (get : EStateM Fault Tally Tally) tally = .ok tally tally := rfl
  unfold reserve
  show EStateM.bind get _ tally = _
  rw [EStateM.bind, read]
  -- Once the tally is read, the outcome depends on the window and on what is said of it.
  cases available : tally.isAvailable start with
  | true =>
    cases writable : (tally.announcement operation start).text.isWritable with
    | true =>
      simp only [available, writable]
      rfl
    | false =>
      simp only [available, writable]
      rfl
  | false =>
    simp only [available]
    rfl

/-- The window of a call is entered if it is free, and whatever else happens makes no difference. -/
theorem attempt_eq (tally : Tally) (call : String × Int) :
    tally.attempt call =
      if tally.isAvailable call.2 = true then tally.take call.1 call.2 else tally := by
  -- Writable or not, an available window is taken: the text is composed after the update.
  rw [attempt, reserve_eq]
  by_cases available : tally.isAvailable call.2 = true
  · rw [if_pos available, if_pos available]
    by_cases writable : (tally.announcement call.1 call.2).text.isWritable = true
    · rw [if_pos writable]
    · rw [if_neg writable]
  · rw [if_neg available, if_neg available]

/-- What is said of a window can be written if its first and its last cycle can. -/
theorem isWritable_announcement (tally : Tally) (operation : String) (start : Int) :
    (tally.announcement operation start).text.isWritable =
      (Text.isWritable start && Text.isWritable (start + tally.width - 1)) := by
  simp [announcement, Event.text]

/-- A start is available just when every cycle of its window has a unit left. -/
theorem isAvailable_iff : tally.isAvailable start = true ↔
    ∀ cycle, start ≤ cycle → cycle < start + tally.width →
      (tally.usage cycle : Int) < tally.limit := by
  simp only [isAvailable, List.all_eq_true, mem_windowCycles, decide_eq_true_eq, and_imp]

/-- A window is granted just when no cycle exceeds the limit with it. -/
theorem isAvailable_iff_fits (width : 1 ≤ tally.width)
    (within : ∀ cycle, (tally.usage cycle : Int) ≤ max tally.limit 0) :
    tally.isAvailable start = true ↔ ∀ cycle,
      ((tally.usage cycle + if start ≤ cycle ∧ cycle < start + tally.width then 1 else 0 : Nat) :
        Int) ≤ tally.limit := by
  rw [isAvailable_iff]
  constructor
  · intro room cycle
    split
    · -- Room for one more is what the limit leaves with the window counted.
      rename_i inside
      have free := room cycle inside.1 inside.2
      push_cast
      omega
    · -- Room at the start means that the limit is positive, so other cycles are within it too.
      have positive := room start le_rfl (by omega)
      have old := within cycle
      omega
  · intro fits cycle after before
    -- With the window counted, each of its cycles is within the limit, so there was room.
    have enough := fits cycle
    rw [if_pos ⟨after, before⟩] at enough
    push_cast at enough
    omega

/-- A call succeeds just in this case, if what is said of its window can be written. -/
theorem grants_iff (width : 1 ≤ tally.width)
    (within : ∀ cycle, (tally.usage cycle : Int) ≤ max tally.limit 0) :
    (∃ after, reserve operation start tally = .ok () after) ↔
      (∀ cycle, ((tally.usage cycle +
        if start ≤ cycle ∧ cycle < start + tally.width then 1 else 0 : Nat) : Int) ≤
          tally.limit) ∧
      (tally.announcement operation start).text.isWritable = true := by
  -- Availability decides whether the call goes on, the text whether it returns.
  rw [← isAvailable_iff_fits width within, reserve_eq]
  by_cases available : tally.isAvailable start = true
  · by_cases writable : (tally.announcement operation start).text.isWritable = true
    · simp [available, writable]
    · simp [available, writable]
  · simp [available]

/-- A call that fails leaves everything as it was, or else it has entered its window and cannot say
so. -/
theorem cases_of_error (width : 1 ≤ tally.width)
    (within : ∀ cycle, (tally.usage cycle : Int) ≤ max tally.limit 0) {after : Tally}
    {fault : Fault} (failed : reserve operation start tally = .error fault after) :
    let fits := ∀ cycle, ((tally.usage cycle +
      if start ≤ cycle ∧ cycle < start + tally.width then 1 else 0 : Nat) : Int) ≤ tally.limit
    ¬fits ∧ after = tally ∧
        fault = (Fault.rejected (.fullyUsed tally.operatorType start)).reported ∨
      fits ∧ after = tally.take operation start ∧ fault = .unwritable := by
  intro fits
  rw [show fits ↔ tally.isAvailable start = true from
    (isAvailable_iff_fits width within).symm]
  rw [reserve_eq] at failed
  -- The call fails in two places: before the update, and on the text that follows it.
  split at failed
  · rename_i available
    split at failed
    · cases failed
    · obtain ⟨rfl, rfl⟩ := EStateM.Result.error.inj failed
      exact .inr ⟨available, rfl, rfl⟩
  · -- A call that finds no room changes nothing.
    rename_i taken
    obtain ⟨rfl, rfl⟩ := EStateM.Result.error.inj failed
    exact .inl ⟨taken, rfl, rfl⟩

/-- A tally of the windows that a table holds, none of which exceeds the limit. -/
structure Mirrors (tally : Tally) (table : ReservationTable Int) : Prop where
  operatorType : tally.operatorType = table.operatorType
  width : tally.width = table.width
  limit : tally.limit = table.limit
  wide : 1 ≤ tally.width
  usage : ∀ cycle, tally.usage cycle = table.usage cycle
  within : ∀ cycle, (tally.usage cycle : Int) ≤ max tally.limit 0
  reservations : tally.reservations = table.reservations

/-- A window is free for both or for none. -/
theorem Mirrors.isAvailable_iff (mirrors : tally.Mirrors table) :
    table.isAvailable start = true ↔ tally.isAvailable start = true := by
  rw [ReservationTable.isAvailable_iff_room (mirrors.width ▸ mirrors.wide), Tally.isAvailable_iff,
    mirrors.width, mirrors.limit]
  simp only [mirrors.usage]

/-- A window that is taken in both is held by the one and counted by the other. -/
theorem Mirrors.take (mirrors : tally.Mirrors table) (available : tally.isAvailable start = true)
    (operation : String) : (tally.take operation start).Mirrors (table.hold operation start) where
  operatorType := mirrors.operatorType
  width := mirrors.width
  limit := mirrors.limit
  wide := mirrors.wide
  usage cycle := by
    rw [usage_take, ReservationTable.usage_hold, mirrors.usage, mirrors.width]
  within cycle := by
    -- The check before the window is counted is the bound after it.
    have fits := (isAvailable_iff_fits mirrors.wide mirrors.within).mp available cycle
    rw [usage_take]
    exact fits.trans (le_max_left _ _)
  reservations := by
    show tally.reservations.put operation start = .ofPairs (table.held ++ [(operation, start)])
    rw [NameTable.ofPairs_append, mirrors.reservations]
    rfl

/-- Each cycle is counted as often as it lies in a window that is held. -/
theorem Mirrors.usage_eq_countP (mirrors : tally.Mirrors table) (cycle : Int) :
    tally.usage cycle =
      table.held.countP fun call => call.2 ≤ cycle ∧ cycle < call.2 + tally.width := by
  -- Both sides count the windows over `cycle`; only the spelling of the range differs.
  rw [mirrors.usage, ReservationTable.usage, occupied, ReservationTable.starts, List.countP_map,
    mirrors.width]
  refine List.countP_congr fun call _ => ?_
  simp

/-- A call ends in the same way on both, whatever messages are shown. -/
theorem Mirrors.outcome_call (mirrors : tally.Mirrors table) (cutoff : Level)
    (operation : String) (start : Int) :
    (table.call cutoff operation start).2.outcome =
      match reserve operation start tally with
      | .ok _ _ => .ok ()
      | .error fault _ => .error fault := by
  have same : table.isAvailable start = true ↔ tally.isAvailable start = true :=
    mirrors.isAvailable_iff
  rw [ReservationTable.outcome_call, reserve_eq, isWritable_announcement, mirrors.operatorType,
    mirrors.width]
  by_cases available : tally.isAvailable start = true
  · -- The window is free for both or for neither.
    rw [if_pos (same.mpr available), if_pos available]
    -- Both fail now if what is said of the window cannot be written.
    by_cases writable : (Text.isWritable start && Text.isWritable (start + table.width - 1)) = true
    · rw [if_pos writable, if_pos writable]
    · rw [if_neg writable, if_neg writable]
  · rw [if_neg (mt same.mp available), if_neg available]

/-- After a call both agree again, and the table holds one more window if one has been entered. -/
theorem Mirrors.attempt (mirrors : tally.Mirrors table) (call : String × Int) :
    (tally.attempt call).Mirrors (table.attempt call) ∧
      (table.attempt call).held = table.held ++ tally.entered [call] := by
  have same : table.isAvailable call.2 = true ↔ tally.isAvailable call.2 = true :=
    mirrors.isAvailable_iff
  rw [attempt_eq]
  by_cases available : tally.isAvailable call.2 = true
  · -- The window is entered in both.
    have reserved := ReservationTable.outcome_reserve (same.mpr available) call.1
    simp only [ReservationTable.attempt, entered, if_pos available, reserved]
    exact ⟨mirrors.take available call.1, rfl⟩
  · -- Nothing changes anywhere.
    have refused : table.isAvailable call.2 = false := Bool.eq_false_iff.mpr (mt same.mp available)
    simp only [ReservationTable.attempt, entered, if_neg available, ReservationTable.reserve,
      refused]
    exact ⟨mirrors, (List.append_nil _).symm⟩

/-- The windows of a row are those of the first call and of the others. -/
theorem entered_cons (tally : Tally) (call : String × Int) (calls : List (String × Int)) :
    tally.entered (call :: calls) =
      tally.entered [call] ++ (tally.attempt call).entered calls := by
  simp only [entered]
  split <;> rfl

/-- So both agree after any row of calls, and the table holds the windows that have been entered. -/
theorem Mirrors.attemptAll (mirrors : tally.Mirrors table) (calls : List (String × Int)) :
    (tally.attemptAll calls).Mirrors (table.attemptAll calls) ∧
      (table.attemptAll calls).held = table.held ++ tally.entered calls := by
  -- The induction is on the calls, from whatever has been reserved before.
  induction calls generalizing tally table with
  | nil => exact ⟨mirrors, (List.append_nil _).symm⟩
  | cons call calls ih =>
    -- After one call the mirror is as good as before, for the calls that follow.
    obtain ⟨after, one⟩ := mirrors.attempt call
    obtain ⟨final, rest⟩ := ih after
    refine ⟨final, ?_⟩
    rw [entered_cons, ← List.append_assoc, ← one]
    exact rest

/-- Calls change neither the type nor the width of its windows nor its limit. -/
theorem attempt_fixed (tally : Tally) (call : String × Int) :
    (tally.attempt call).operatorType = tally.operatorType ∧
      (tally.attempt call).width = tally.width ∧ (tally.attempt call).limit = tally.limit := by
  rw [attempt_eq]
  split <;> exact ⟨rfl, rfl, rfl⟩

/-- No call changes the type, the width or the limit of a tally. -/
theorem attemptAll_fixed (tally : Tally) (calls : List (String × Int)) :
    (tally.attemptAll calls).operatorType = tally.operatorType ∧
      (tally.attemptAll calls).width = tally.width ∧
      (tally.attemptAll calls).limit = tally.limit := by
  -- The three fixed values are carried through the calls, one at a time.
  induction calls generalizing tally with
  | nil => exact ⟨rfl, rfl, rfl⟩
  | cons call calls ih =>
    obtain ⟨operatorType, width, limit⟩ := ih (tally.attempt call)
    obtain ⟨operatorType', width', limit'⟩ := tally.attempt_fixed call
    exact ⟨operatorType.trans operatorType', width.trans width', limit.trans limit'⟩

/-- Of the windows that are entered, those are granted that this can be said of. -/
theorem granted_eq_filter (tally : Tally) (calls : List (String × Int)) :
    tally.granted calls = (tally.entered calls).filter fun call =>
      Text.isWritable call.2 && Text.isWritable (call.2 + tally.width - 1) := by
  -- By induction on the calls; the width of the windows stays the same.
  induction calls generalizing tally with
  | nil => rfl
  | cons call calls ih =>
    -- The state after the call does not depend on what is said of it.
    have rest := ih (tally.attempt call)
    rw [(tally.attempt_fixed call).2.1, attempt_eq] at rest
    rw [granted, entered, attempt_eq, reserve_eq, isWritable_announcement]
    by_cases available : tally.isAvailable call.2 = true
    · rw [if_pos available] at rest
      by_cases writable : (Text.isWritable call.2 && Text.isWritable (call.2 + tally.width - 1)) =
          true
      · simp only [if_pos available, if_pos writable, List.filter_cons, rest]
      · simp only [if_pos available, if_neg writable, List.filter_cons, rest]
    · rw [if_neg available] at rest
      simp only [if_neg available, rest]

/-- Where nothing is reserved, nothing is used. -/
theorem mirrors_nil (name : String) (latency limit : Int) :
    Mirrors ⟨name, max latency 1, limit, fun _ => 0, []⟩ ⟨name, max latency 1, limit, []⟩ where
  operatorType := rfl
  width := rfl
  limit := rfl
  wide := le_max_right _ _
  usage _ := rfl
  within _ := le_max_right _ _
  reservations := rfl

/-- A type with a limit gets a tally with nothing in use. -/
theorem new_ok {operatorType : OperatorType Int} {limit : Int}
    (limited : operatorType.limit = some limit) :
    new operatorType =
      .ok ⟨operatorType.name, max operatorType.latency 1, limit, fun _ => 0, []⟩ := by
  rw [new, limited]

end Tally

namespace ReservationTable

variable {table : ReservationTable Int} {cycle : Int}

/-- The cycles in use are listed with the number of instances that are taken in them. -/
theorem mem_usageCounts {number : Nat} :
    (cycle, number) ∈ table.usageCounts ↔ 0 < number ∧ table.usage cycle = number := by
  -- A cycle is counted when some window covers it, which is what a positive usage says.
  have used : 0 < table.usage cycle ↔
      ∃ start ∈ table.starts, cycle ∈ windowCycles table.width start := by
    simp only [usage, occupied, List.countP_pos_iff, Bool.and_eq_true, decide_eq_true_eq,
      mem_windowCycles]
  simp only [usageCounts, List.mem_map, List.mem_mergeSort, List.mem_eraseDups, List.mem_flatMap,
    Prod.mk.injEq]
  constructor
  · -- Every listed cycle is covered by a window.
    rintro ⟨other, listed, rfl, rfl⟩
    exact ⟨used.mpr listed, rfl⟩
  · rintro ⟨positive, rfl⟩
    exact ⟨cycle, used.mp positive, rfl, rfl⟩

end ReservationTable

open Tally

/-- On the table of a limited operator type, after any row of calls, each cycle is counted as often
as it lies in a window that has been entered, no count exceeds the limit, and the reservations are
the latest starts entered. The windows whose calls succeed are those of them whose first and last
cycle can be written. The next call succeeds just when no cycle exceeds the limit with its window
and these can be written. If it fails, then everything is as it was and some cycle would exceed the
limit, or else its window is entered and it is only the message about it that cannot be written. The
table that only remembers its windows counts the same, and its calls end in the same way. -/
theorem reservations_are_accounted_for {operatorType : OperatorType Int} {limit : Int}
    (limited : operatorType.limit = some limit) (calls : List (String × Int)) :
    ∃ (fresh : Tally) (empty : ReservationTable Int), Tally.new operatorType = .ok fresh ∧
      ReservationTable.new operatorType = .ok empty ∧
      let width := max operatorType.latency 1
      let entered := fresh.entered calls
      let tally := fresh.attemptAll calls
      let table := empty.attemptAll calls
      let fits := fun start => ∀ cycle, ((tally.usage cycle +
        if start ≤ cycle ∧ cycle < start + width then 1 else 0 : Nat) : Int) ≤ limit
      (∀ cycle, tally.usage cycle =
        entered.countP fun call => call.2 ≤ cycle ∧ cycle < call.2 + width) ∧
      (∀ cycle, (tally.usage cycle : Int) ≤ max limit 0) ∧
      tally.reservations = .ofPairs entered ∧
      fresh.granted calls = entered.filter (fun call =>
        Text.isWritable call.2 && Text.isWritable (call.2 + width - 1)) ∧
      (∀ operation start, (∃ after, Tally.reserve operation start tally = .ok () after) ↔
        fits start ∧
          (Text.isWritable start && Text.isWritable (start + width - 1)) = true) ∧
      (∀ operation start fault after, Tally.reserve operation start tally = .error fault after →
        ¬fits start ∧ after = tally ∧
            fault = (Fault.rejected (.fullyUsed operatorType.name start)).reported ∨
          fits start ∧ after = tally.take operation start ∧ fault = .unwritable) ∧
      (∀ cycle number, (cycle, number) ∈ table.usageCounts ↔
        0 < number ∧ tally.usage cycle = number) ∧
      table.reservations = tally.reservations ∧
      ∀ cutoff operation start,
        (table.call cutoff operation start).1 = empty.attemptAll (calls ++ [(operation, start)]) ∧
        (table.call cutoff operation start).2.outcome =
          match Tally.reserve operation start tally with
          | .ok _ _ => .ok ()
          | .error fault _ => .error fault := by
  refine ⟨_, _, Tally.new_ok limited, ReservationTable.new_ok limited, ?_⟩
  intro width entered tally table fits
  obtain ⟨mirrors, holds⟩ := (mirrors_nil operatorType.name operatorType.latency limit).attemptAll
    calls
  have fixed := attemptAll_fixed
    ⟨operatorType.name, max operatorType.latency 1, limit, fun _ => 0, []⟩ calls
  -- The parts of the tally that no call changes are those of the new one.
  have held : table.held = entered := holds
  have sameType : tally.operatorType = operatorType.name := fixed.1
  have sameWidth : tally.width = width := fixed.2.1
  have sameLimit : tally.limit = limit := fixed.2.2
  have usage (cycle : Int) : tally.usage cycle = table.usage cycle := mirrors.usage cycle
  have said (operation : String) (start : Int) :
      (tally.announcement operation start).text.isWritable =
        (Text.isWritable start && Text.isWritable (start + width - 1)) := by
    rw [isWritable_announcement, sameWidth]
  -- What holds of the windows in the table is said of the calls that entered them.
  refine ⟨fun cycle => ?_, fun cycle => ?_, ?_, granted_eq_filter _ _, fun operation start => ?_,
    fun operation start fault after failed => ?_, fun cycle number => ?_,
    mirrors.reservations.symm, fun cutoff operation start =>
      ⟨?_, mirrors.outcome_call cutoff operation start⟩⟩
  · -- Each part is carried over from the table that the counts mirror.
    rw [← held, ← sameWidth]
    exact mirrors.usage_eq_countP cycle
  · rw [← sameLimit]
    exact mirrors.within cycle
  · rw [← held]
    exact mirrors.reservations
  · have grants : (∃ after, Tally.reserve operation start tally = .ok () after) ↔ _ :=
      grants_iff mirrors.wide mirrors.within
    rwa [said, sameWidth, sameLimit] at grants
  · have cases_ : _ ∨ _ := cases_of_error mirrors.wide mirrors.within failed
    rwa [sameType, sameWidth, sameLimit] at cases_
  · rw [ReservationTable.mem_usageCounts, usage]
  · rw [ReservationTable.fst_call, ReservationTable.attemptAll, List.foldl_append]
    rfl

/-- The second call for the first operation is refused, and the third one moves it. -/
theorem multiplier_calls_are_accounted_for :
    let operatorType : OperatorType Int := ⟨"multiplier", 2, some 2⟩
    let calls := [("x", 0), ("y", 1), ("x", 1), ("x", 2)]
    operatorType.limit = some 2 ∧
    ∃ fresh : Tally, Tally.new operatorType = .ok fresh ∧
      let entered := fresh.entered calls
      let tally := fresh.attemptAll calls
      entered = [("x", 0), ("y", 1), ("x", 2)] ∧ fresh.granted calls = entered ∧
      tally.reservations = [("x", 2), ("y", 1)] ∧
      (∀ cycle, tally.usage cycle =
        entered.countP fun call => call.2 ≤ cycle ∧ cycle < call.2 + 2) ∧
      ∀ cycle, (tally.usage cycle : Int) ≤ 2 := by
  intro operatorType calls
  have limited : operatorType.limit = some 2 := rfl
  obtain ⟨fresh, empty, made, _, counts, within, _, grants, _⟩ :=
    reservations_are_accounted_for limited calls
  obtain rfl := Except.ok.inj made
  -- All cycles have few digits, so that the calls for all windows that are entered succeed.
  exact ⟨limited, _, made, by decide +kernel, grants.trans (by decide +kernel), by decide +kernel,
    counts, within⟩

/-- A window whose last cycle has too many digits is entered by a call that fails. -/
theorem unannounced_window_stays :
    ∃ fresh after : Tally, Tally.new ⟨"multiplier", 2, some 1⟩ = .ok fresh ∧
      Tally.reserve "x" (Text.leastUnwritable - 1) fresh = .error .unwritable after ∧
      fresh.usage Text.leastUnwritable = 0 ∧ after.usage Text.leastUnwritable = 1 ∧
      fresh.reservations = [] ∧ after.reservations = [("x", Text.leastUnwritable - 1)] := by
  let fresh : Tally := ⟨"multiplier", 2, 1, fun _ => 0, []⟩
  have wide : fresh.width = 2 := rfl
  refine ⟨fresh, fresh.take "x" (Text.leastUnwritable - 1), rfl, ?_, rfl, ?_, rfl, rfl⟩
  · -- Nothing is counted yet, so there is room everywhere.
    have room : fresh.isAvailable (Text.leastUnwritable - 1) = true :=
      isAvailable_iff.mpr fun _ _ _ => Int.zero_lt_one
    rw [reserve_eq, if_pos room, isWritable_announcement, if_neg (by decide +kernel)]
  · rw [usage_take, if_pos ⟨by omega, by omega⟩]

end CycleSchedule
