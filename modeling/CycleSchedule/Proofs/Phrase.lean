import Mathlib.Algebra.Order.Ring.Int
import CycleSchedule.Fault

/-! Which texts can be written, and what becomes of faults whose messages cannot. -/

namespace CycleSchedule

namespace Text

/-- A whole number can be written if its absolute value is below the power of ten with one digit
more than the limit. -/
theorem isWritable_iff {n : Int} : isWritable n = true ↔ n.natAbs < 10 ^ digitLimit := by
  simp [isWritable]

/-- A number with a sign is as long as its absolute value. -/
theorem isWritable_iff_abs {n : Int} : isWritable n = true ↔ |n| < 10 ^ digitLimit := by
  rw [isWritable_iff, Int.abs_eq_natAbs]
  exact_mod_cast Iff.rfl

/-- Zero has one digit. -/
theorem isWritable_zero : isWritable 0 = true := by
  rw [isWritable_iff]
  exact Nat.pow_pos (by decide)

/-- The least count with too many digits. -/
def leastUnwritable : Int := (10 ^ digitLimit : Nat)

/-- From there on no count can be written, and below it each can. -/
theorem isLeast_leastUnwritable :
    IsLeast {n : Int | 0 ≤ n ∧ ¬isWritable n = true} leastUnwritable := by
  -- The power of ten is compared with itself, without being worked out.
  refine ⟨⟨Int.natCast_nonneg _, ?_⟩, fun n ⟨nonneg, unwritable⟩ => ?_⟩
  · rw [isWritable_iff, leastUnwritable, Int.natAbs_natCast]
    exact lt_irrefl _
  · rw [isWritable_iff_abs, abs_of_nonneg nonneg, not_lt] at unwritable
    rw [leastUnwritable, Nat.cast_pow]
    exact unwritable

end Text

namespace Phrase

/-- Parts of texts that are joined come one after the other. -/
@[simp] theorem parts_append (first second : Phrase) :
    (first ++ second).parts = first.parts ++ second.parts := rfl

/-- The characters of joined texts are joined. -/
@[simp] theorem spelled_append (first second : Phrase) :
    (first ++ second).spelled = first.spelled ++ second.spelled := by
  simp [spelled]

/-- Words are spelled as they stand. -/
@[simp] theorem spelled_words (s : String) : (s : Phrase).spelled = s := by
  simp [spelled, Part.spelled]

/-- A number is spelled in digits. -/
@[simp] theorem spelled_number (n : Int) : (number n).spelled = toString n := by
  simp [spelled, number, Part.spelled]

/-- Joined texts can be written if both of them can. -/
@[simp] theorem isWritable_append (first second : Phrase) :
    (first ++ second).isWritable = (first.isWritable && second.isWritable) := by
  simp [isWritable]

/-- Words can always be written. -/
@[simp] theorem isWritable_words (s : String) : (s : Phrase).isWritable = true := rfl

/-- A number is a text that can be written if the number can. -/
@[simp] theorem isWritable_number (n : Int) : (number n).isWritable = Text.isWritable n := by
  simp [isWritable, number, Part.isWritable]

/-- A count is a number. -/
@[simp] theorem isWritable_count (n : Nat) : (count n).isWritable = Text.isWritable n :=
  isWritable_number n

/-- A whole number is shown by its digits. -/
@[simp] theorem isWritable_whole (n : Int) :
    (Number.whole n).text.isWritable = Text.isWritable n := isWritable_number n

/-- Texts in a row can be written if each of them can. -/
@[simp] theorem isWritable_joined (between : String) (phrases : List Phrase) :
    (joined between phrases).isWritable = phrases.all isWritable := by
  -- The words between two texts can always be written.
  induction phrases using joined.induct with
  | case1 => rfl
  | case2 phrase => simp [joined]
  | case3 phrase phrases more ih =>
    rw [joined]
    · simp [ih]
    · exact more

/-- Writing fails if some part cannot be written, and gives the characters of all parts otherwise.
-/
theorem write?_eq (phrase : Phrase) :
    phrase.write? = if phrase.isWritable then some phrase.spelled else none := by
  obtain ⟨parts⟩ := phrase
  -- The parts are written one after the other, and the first that fails ends it.
  have each : parts.mapM Part.write? =
      if parts.all Part.isWritable then some (parts.map Part.spelled) else none := by
    induction parts with
    | nil => rfl
    | cons part parts ih =>
      -- A part is a text, which can always be written, or a number, which may be too long.
      have here : part.write? = if part.isWritable then some part.spelled else none := by
        cases part <;> rfl
      rw [List.mapM_cons, here, ih, List.all_cons, List.map_cons]
      cases part.isWritable <;> cases parts.all Part.isWritable <;> rfl
  rw [write?, each, isWritable, spelled]
  cases parts.all Part.isWritable <;> rfl

/-- A text that can be written is written as it is spelled. -/
theorem written_eq (phrase : Phrase) :
    phrase.written = if phrase.isWritable then .ok phrase.spelled else .error .unwritable := by
  rw [written, write?_eq]
  cases phrase.isWritable <;> rfl

end Phrase

/-- The text of a dependence can be written if its distance can. -/
theorem Dependence.isWritable_text (dependence : Dependence Int) :
    dependence.text.isWritable = Text.isWritable dependence.distance := by
  by_cases now : dependence.distance = 0
  · -- Zero could be written, and is not.
    simp [text, Quantity.isVoid, now, Text.isWritable_zero]
  · simp [text, Quantity.isVoid, Quantity.text, now]

variable {α : Type} {fault : Fault} {outcome : Except Fault α}

/-- What succeeds has no message to put together. -/
@[simp] theorem reported_ok (a : α) : reported (.ok a : Except Fault α) = .ok a := rfl

/-- A fault is reported in place of the outcome. -/
@[simp] theorem reported_error (fault : Fault) :
    reported (.error fault : Except Fault α) = .error fault.reported := rfl

/-- What is reported in place of a fault depends on its message. -/
theorem reported_error_eq (fault : Fault) :
    reported (.error fault : Except Fault α) =
      if fault.message.isWritable then .error fault else .error .unwritable := by
  rw [reported_error, Fault.reported]
  split <;> rfl

/-- A fault is reported as it is if its message can be written. -/
theorem Fault.reported_of_isWritable (writable : fault.message.isWritable = true) :
    fault.reported = fault := if_pos writable

/-- A fault whose message cannot be written is not heard of. -/
theorem Fault.reported_of_not_isWritable (unwritable : fault.message.isWritable = false) :
    fault.reported = .unwritable := if_neg (by simp [unwritable])

/-- Putting messages together makes no success of a fault, nor the other way round. -/
@[simp] theorem reported_eq_ok_iff {a : α} : reported outcome = .ok a ↔ outcome = .ok a := by
  cases outcome <;> simp

end CycleSchedule
