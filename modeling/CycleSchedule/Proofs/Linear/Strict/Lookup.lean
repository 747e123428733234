import CycleSchedule.Proofs.NameTable
import CycleSchedule.Proofs.Narrated
import CycleSchedule.Proofs.Linear.Combination

/-! Look-ups, quotients and strict pairings that may fail, and when they do not. -/

namespace CycleSchedule

/-- How a step can fail that takes something to be there. -/
inductive Slip where
  | missingName (name : String)
  | missingPlace (place : Nat)
  | unequalLengths
  | zeroDivisor
  | failedAssertion
deriving DecidableEq, Repr

namespace Strict

variable {α β : Type}

/-- The item at a place. -/
def item (items : List α) (place : Nat) : Except Slip α :=
  match items[place]? with
  | some found => .ok found
  | none => .error (.missingPlace place)

/-- The list with another item at a place. -/
def replaced (items : List α) (place : Nat) (value : α) : Except Slip (List α) :=
  if place < items.length then .ok (items.set place value) else .error (.missingPlace place)

/-- The list without the item at a place. -/
def removed (items : List α) (place : Nat) : Except Slip (List α) :=
  if place < items.length then .ok (items.eraseIdx place) else .error (.missingPlace place)

/-- The value under a name. -/
def valueOf (table : NameTable α) (name : String) : Except Slip α :=
  match table.get? name with
  | some value => .ok value
  | none => .error (.missingName name)

/-- Two lists side by side, which have to be of the same length. -/
def pairs (left : List α) (right : List β) : Except Slip (List (α × β)) :=
  if left.length = right.length then .ok (left.zip right) else .error .unequalLengths

/-- A quotient, for which the divisor must not be zero. -/
def quotient (a b : Rat) : Except Slip Rat :=
  if b = 0 then .error .zeroDivisor else .ok (a / b)

/-- A place that holds an item yields it. -/
theorem item_of_getElem? {items : List α} {place : Nat} {found : α}
    (located : items[place]? = some found) : item items place = .ok found := by
  rw [item, located]

/-- Within its length a list of numbers has an item at every place. -/
theorem item_eq_getD {items : List Rat} {place : Nat} (within : place < items.length) :
    item items place = .ok (items.getD place 0) := by
  rw [item_of_getElem? (List.getElem?_eq_getElem within), List.getD_eq_getElem _ _ within]

/-- An item within the list can be replaced. -/
theorem replaced_ok {items : List α} {place : Nat} (within : place < items.length) (value : α) :
    replaced items place value = .ok (items.set place value) := if_pos within

/-- A place in the middle of a list is replaced there. -/
theorem replaced_middle (front : List α) {middle : List α} {place : Nat}
    (within : place < middle.length) (rest : List α) (value : α) :
    replaced (front ++ middle ++ rest) (front.length + place) value =
      .ok (front ++ middle.set place value ++ rest) := by
  -- The place lies in the middle part, as far in as it is behind the front.
  have inside : front.length + place < (front ++ middle).length := by simpa using within
  rw [replaced_ok (by simp; omega), List.set_append_left _ _ inside,
    List.set_append_right _ _ (Nat.le_add_right _ _), Nat.add_sub_cancel_left]

/-- An item within the list can be removed. -/
theorem removed_ok {items : List α} {place : Nat} (within : place < items.length) :
    removed items place = .ok (items.eraseIdx place) := if_pos within

/-- A name that is found yields its value. -/
theorem valueOf_of_get? {table : NameTable α} {name : String} {value : α}
    (found : table.get? name = some value) : valueOf table name = .ok value := by
  rw [valueOf, found]

/-- Lists of one length can be paired. -/
theorem pairs_ok {left : List α} {right : List β} (same : left.length = right.length) :
    pairs left right = .ok (left.zip right) := if_pos same

/-- What is not 0 can be divided by. -/
theorem quotient_ok {b : Rat} (nonzero : b ≠ 0) (a : Rat) : quotient a b = .ok (a / b) :=
  if_neg nonzero

/-- A search succeeds if each of its questions does. -/
theorem findM?_ok {items : List α} {asks : α → Except Slip Bool} (answer : α → Bool)
    (each : ∀ item ∈ items, asks item = .ok (answer item)) :
    items.findM? asks = .ok (items.find? answer) := by
  -- By induction on the items: the search ends at the first one or goes on with the others.
  induction items with
  | nil => rfl
  | cons head tail ih =>
    obtain ⟨here, there⟩ := List.forall_mem_cons.mp each
    rw [List.findM?, here, ok_bind]
    -- An item that is asked for ends the search.
    cases answer_ : answer head with
    | true => simp [answer_]
    | false => simpa [answer_] using ih there

/-- Steps that succeed in states of one form, and lead to states of that form, succeed together. -/
theorem foldlM_ok {γ σ : Type} {step : γ → α → Except Slip γ} {next : σ → α → σ} (form : σ → γ)
    (good : σ → Prop) {items : List α} (start : σ) (first : good start)
    (each : ∀ item ∈ items, ∀ state, good state →
      step (form state) item = .ok (form (next state item)) ∧ good (next state item)) :
    items.foldlM step (form start) = .ok (form (items.foldl next start)) := by
  -- By induction on the items, from whatever good state there is.
  induction items generalizing start with
  | nil => rfl
  | cons head tail ih =>
    obtain ⟨here, there⟩ := List.forall_mem_cons.mp each
    obtain ⟨stepped, kept⟩ := here start first
    rw [List.foldlM_cons, stepped, ok_bind, List.foldl_cons]
    exact ih _ kept there

/-- The numbers of a list that are not zero, each behind its place; the first place is given. -/
def nonzeroEntries (first : Nat) (numbers : List Rat) : List (Nat × Rat) :=
  ((numbers.zipIdx first).filter (·.1 ≠ 0)).map fun entry => (entry.2, entry.1)

/-- A row after the numbers at the places of entries have been replaced one by one. -/
def changed (next : Rat → Rat → Rat) (entries : List (Nat × Rat)) (row : List Rat) :
    Except Slip (List Rat) :=
  entries.foldlM (fun row entry => do
    let old ← item row entry.1
    replaced row entry.1 (next old entry.2)) row

/-- Replacing numbers at the places of another list's entries joins the two lists. -/
private theorem changed_append (next : Rat → Rat → Rat) : ∀ (numbers done rest : List Rat),
    rest.length = numbers.length →
    changed next (nonzeroEntries done.length numbers) (done ++ rest) =
      .ok (done ++ List.zipWith (fun old number => if number = 0 then old else next old number)
        rest numbers) := by
  -- By induction on the numbers; what has been replaced so far stands in front.
  intro numbers
  induction numbers with
  | nil =>
    intro done rest same
    obtain rfl := List.eq_nil_of_length_eq_zero same
    rfl
  | cons number numbers ih =>
    intro done rest same
    -- There is an old number for every new one.
    obtain ⟨old, rest, rfl⟩ := List.exists_cons_of_length_eq_add_one same
    have others := Nat.succ_inj.mp same
    have shift (value : Rat) : done ++ value :: rest = (done ++ [value]) ++ rest := by simp
    have behind (value : Rat) : (done ++ [value]).length = done.length + 1 := by simp
    by_cases zero : number = 0
    · -- No entry comes from a zero, and the old number stays.
      have skipped : nonzeroEntries done.length (number :: numbers) =
          nonzeroEntries (done ++ [old]).length numbers := by
        simp [nonzeroEntries, zero]
      rw [skipped, shift, ih _ _ others]
      simp [zero]
    · -- The entry of a number that is not zero is changed where the list has got to.
      have entered : nonzeroEntries done.length (number :: numbers) =
          (done.length, number) :: nonzeroEntries (done ++ [next old number]).length numbers := by
        simp [nonzeroEntries, zero]
      -- The old number is found at this place and replaced there.
      have found : item (done ++ old :: rest) done.length = .ok old := by
        simp [item]
      have stored : replaced (done ++ old :: rest) done.length (next old number) =
          .ok ((done ++ [next old number]) ++ rest) := by
        simp [replaced]
      rw [entered, changed, List.foldlM_cons, found, ok_bind, stored, ok_bind]
      refine (ih _ _ others).trans ?_
      simp [zero]

/-- Replacing the numbers of a row at the places of another row's entries changes those numbers and
no others. -/
theorem changed_ok (next : Rat → Rat → Rat) {row numbers : List Rat}
    (same : row.length = numbers.length) :
    changed next (nonzeroEntries 0 numbers) row =
      .ok (List.zipWith (fun old number => if number = 0 then old else next old number)
        row numbers) :=
  changed_append next numbers [] row same

end Strict

end CycleSchedule
