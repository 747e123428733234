import CycleSchedule.Proofs.Reservation
import CycleSchedule.Proofs.Told

/-! Rows of reservations: one that is refused leaves the table as it is, and none is refused just
when the windows of all of them keep every cycle within the limit. -/

namespace CycleSchedule

namespace ReservationTable

variable {table : ReservationTable Int}

/-- A window is reserved just when it is free, and then the table holds it. -/
theorem outcome_reserve_eq_ok_iff {operation : String} {start : Int}
    {next : ReservationTable Int} : (table.reserve operation start).outcome = .ok next ↔
      table.isAvailable start = true ∧ table.hold operation start = next := by
  by_cases available : table.isAvailable start = true
  · rw [outcome_reserve available, Except.ok.injEq, and_iff_right available]
  · simp [reserve, available]

/-- A call succeeds if its window is free and what is said of it can be written. It is put together
whether it is shown or not. -/
theorem outcome_call (table : ReservationTable Int) (cutoff : Level) (operation : String)
    (start : Int) :
    (table.call cutoff operation start).2.outcome =
      if table.isAvailable start = true then
        if (Text.isWritable start && Text.isWritable (start + table.width - 1)) = true then .ok ()
        else .error .unwritable
      else .error (Fault.rejected (.fullyUsed table.operatorType start)).reported := by
  rw [call, Narrated.outcome_told, reserve]
  -- An available call has one event, and it stands after the update.
  by_cases available : table.isAvailable start = true
  · -- The event is not guarded, so what is shown plays no part.
    have tellable : (Event.reserved table.operatorType operation start
        (start + table.width - 1)).IsTellable cutoff ↔
          (Text.isWritable start && Text.isWritable (start + table.width - 1)) = true := by
      simp [Event.IsTellable, Event.isComposed, Event.isGuarded, Event.text]
    simp only [if_pos available, Narrated.IsTellable, List.forall_mem_singleton, tellable]
    rfl
  · rw [if_neg available, if_neg available]
    rfl

/-- The table after a reservation, which leaves it as it is where it is refused. -/
def attempt (table : ReservationTable Int) (call : String × Int) : ReservationTable Int :=
  match (table.reserve call.1 call.2).outcome with
  | .ok next => next
  | .error _ => table

/-- A window that is free is entered, and nothing else changes. -/
theorem attempt_eq (table : ReservationTable Int) (call : String × Int) :
    table.attempt call =
      if table.isAvailable call.2 = true then table.hold call.1 call.2 else table := by
  rw [attempt]
  -- The raw step fails only on an unavailable window, which leaves the table as it was.
  by_cases available : table.isAvailable call.2 = true
  · rw [outcome_reserve available, if_pos available]
  · rw [reserve, if_neg available, if_neg available]
    rfl

/-- A call enters its window if that is free, whatever becomes of the message about it. -/
theorem fst_call (table : ReservationTable Int) (cutoff : Level) (operation : String)
    (start : Int) :
    (table.call cutoff operation start).1 = table.attempt (operation, start) := by
  rw [call, attempt]
  cases (table.reserve operation start).outcome <;> rfl

/-- The table after a row of reservations, some of which may be refused. -/
def attemptAll (table : ReservationTable Int) (calls : List (String × Int)) :
    ReservationTable Int :=
  calls.foldl attempt table

/-- A reservation that may be refused keeps every cycle within the limit. -/
theorem Keeps.attempt (keeps : table.Keeps) (call : String × Int) : (table.attempt call).Keeps := by
  unfold ReservationTable.attempt
  split
  · -- What is granted was free, and what is refused leaves the table.
    rename_i next reserved
    obtain ⟨available, rfl⟩ := outcome_reserve_eq_ok_iff.mp reserved
    exact keeps.hold available call.1
  · exact keeps

/-- So does any row of them. -/
theorem Keeps.attemptAll (keeps : table.Keeps) (calls : List (String × Int)) :
    (table.attemptAll calls).Keeps := by
  -- By induction on the reservations, from every table to begin with.
  induction calls generalizing table with
  | nil => exact keeps
  | cons call calls ih => exact ih (keeps.attempt call)

/-- Reserves windows one after the other, up to the first that is refused. -/
def reserveAll (table : ReservationTable Int) (calls : List (String × Int)) :
    Narrated (ReservationTable Int) :=
  calls.foldlM (fun table call => table.reserve call.1 call.2) table

/-- The first window has to be free, and the others have to be so once it is taken. -/
theorem exists_reserveAll_cons {call : String × Int} {calls : List (String × Int)} :
    (∃ final, (table.reserveAll (call :: calls)).outcome = .ok final) ↔
      table.isAvailable call.2 = true ∧
        ∃ final, ((table.hold call.1 call.2).reserveAll calls).outcome = .ok final := by
  -- Only a window that is granted leads on to the others, on the table that holds it.
  have first : (table.reserveAll (call :: calls)).outcome =
      (table.reserve call.1 call.2).outcome >>= fun next => (next.reserveAll calls).outcome := by
    rw [reserveAll, List.foldlM_cons, Narrated.outcome_bind]
    rfl
  simp only [first, bind_eq_ok_iff, outcome_reserve_eq_ok_iff]
  constructor
  · rintro ⟨final, _, ⟨available, rfl⟩, rest⟩
    exact ⟨available, final, rest⟩
  · rintro ⟨available, final, rest⟩
    exact ⟨final, _, ⟨available, rfl⟩, rest⟩

/-- No window of a row is refused just when all of them fit into the table together. -/
theorem exists_reserveAll_iff (width : 1 ≤ table.width) {calls : List (String × Int)} :
    (∃ final, (table.reserveAll calls).outcome = .ok final) ↔
      ∀ cycle, 0 < occupied table.width (calls.map (·.2)) cycle →
        ((table.usage cycle + occupied table.width (calls.map (·.2)) cycle : Nat) : Int) ≤
          table.limit := by
  -- The induction is on the reservations; what the first one takes the others find taken.
  induction calls generalizing table with
  | nil => exact iff_of_true ⟨table, rfl⟩ (by simp [occupied])
  | cons call calls ih =>
    have rest := @ih (table.hold call.1 call.2) width
    simp only [usage_hold] at rest
    rw [exists_reserveAll_cons, rest, isAvailable_iff_room width]
    simp only [List.map_cons, occupied_cons]
    change _ ∧ (∀ cycle, 0 < occupied table.width (calls.map (·.2)) cycle → _ ≤ table.limit) ↔ _
    constructor
    · rintro ⟨room, fits⟩ cycle used
      rcases Nat.eq_zero_or_pos (occupied table.width (calls.map (·.2)) cycle) with none_ | others
      · -- Only the first window holds the cycle, and it was free.
        rw [none_] at used ⊢
        split at used
        · rename_i inside
          have free := room cycle inside.1 inside.2
          rw [if_pos inside]
          push_cast
          omega
        · omega
      · have enough := fits cycle others
        rw [add_right_comm] at enough
        rwa [add_assoc] at enough
    · intro fits
      refine ⟨fun cycle after before => ?_, fun cycle others => ?_⟩
      · -- With the first window the cycle is within the limit, so there was room without it.
        have enough := fits cycle
        rw [if_pos ⟨after, before⟩] at enough
        have within := enough (Nat.succ_pos _)
        push_cast at within
        omega
      · have enough := fits cycle (by omega)
        rw [add_right_comm, add_assoc]
        exact enough

/-- How the calls of a row end, one after the other. -/
def callAll (cutoff : Level) : ReservationTable Int → List (String × Int) → List (Except Fault Unit)
  | _, [] => []
  | table, call :: calls =>
    let (next, told) := table.call cutoff call.1 call.2
    told.outcome :: callAll cutoff next calls

/-- All calls of a row succeed just when no window is refused and all that is said of them can be
written. -/
theorem forall_mem_callAll_iff {cutoff : Level} {calls : List (String × Int)} :
    (∀ outcome ∈ table.callAll cutoff calls, outcome = .ok ()) ↔
      (∃ final, (table.reserveAll calls).outcome = .ok final) ∧
        ∀ call ∈ calls,
          (Text.isWritable call.2 && Text.isWritable (call.2 + table.width - 1)) = true := by
  -- The induction is on the calls; up to one that fails all windows are held.
  induction calls generalizing table with
  | nil => exact iff_of_true (by simp [callAll]) ⟨⟨table, rfl⟩, by simp⟩
  | cons call calls ih =>
    rw [callAll, List.forall_mem_cons, List.forall_mem_cons, exists_reserveAll_cons, outcome_call,
      fst_call, attempt_eq]
    by_cases available : table.isAvailable call.2 = true
    · have rest := @ih (table.hold call.1 call.2)
      rw [if_pos available, if_pos available, rest]
      by_cases writable : (Text.isWritable call.2 &&
          Text.isWritable (call.2 + table.width - 1)) = true
      · simp only [available, writable, hold, if_true, true_and]
      · simp [writable]
    · simp [available]

end ReservationTable

end CycleSchedule
