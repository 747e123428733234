import Mathlib.Data.List.TakeWhile
import CycleSchedule.Proofs.Narrated
import CycleSchedule.Proofs.Phrase

/-! What is left of a computation when its texts are put together: all of it, or what came before
the first text that cannot be written. -/

namespace CycleSchedule

variable {α β : Type}

/-- Whether an event can be told where messages from a level on are shown: its text is not put
together there, or can be written. -/
def Event.IsTellable (cutoff : Level) (event : Event) : Prop :=
  -- A text that nobody is going to be shown may be put together all the same.
  event.isComposed cutoff = true → event.text.isWritable = true

instance (cutoff : Level) : DecidablePred (Event.IsTellable cutoff) :=
  fun event => inferInstanceAs (Decidable (event.isComposed cutoff = true → _))

/-- Whether all events of a computation can be told where messages from a level on are shown. -/
def Narrated.IsTellable (cutoff : Level) (narrated : Narrated α) : Prop :=
  ∀ event ∈ narrated.events, event.IsTellable cutoff

instance (cutoff : Level) (narrated : Narrated α) : Decidable (narrated.IsTellable cutoff) :=
  inferInstanceAs (Decidable (∀ event ∈ narrated.events, event.IsTellable cutoff))

/-- The lines that show events where messages from a level on are shown. -/
def linesOf (cutoff : Level) (events : List Event) : List String :=
  (events.filter fun event => event.isShown cutoff).map fun event => event.text.spelled

namespace Told

variable {γ : Type}

/-- What is followed in three parts may be joined from either end. -/
theorem andThen_andThen (first : Told α) (second : α → Told β) (third : β → Told γ) :
    (first.andThen second).andThen third = first.andThen fun a => (second a).andThen third := by
  obtain ⟨lines, outcome⟩ := first
  -- The first computation ends both sides, or both go on from its result.
  cases outcome with
  | error fault => rfl
  | ok a =>
    simp only [andThen]
    cases (second a).outcome <;> simp

end Told

section Events

variable {cutoff : Level} {event : Event} {events : List Event}

/-- What is shown is put together. -/
theorem Event.isComposed_of_isShown (shown : event.isShown cutoff = true) :
    event.isComposed cutoff = true := by
  simp [isComposed, shown]

/-- Events are told one after the other, as long as they can be. -/
theorem tellAll_cons (cutoff : Level) (event : Event) (events : List Event) :
    tellAll cutoff (event :: events) =
      if event.IsTellable cutoff then
        (Told.mk (linesOf cutoff [event]) (.ok ())).andThen fun _ => tellAll cutoff events
      else ⟨[], .error .unwritable⟩ := by
  rw [tellAll, Phrase.write?_eq]
  by_cases composed : event.isComposed cutoff = true
  · by_cases writable : event.text.isWritable = true
    -- The text is put together and can be written, so the line is shown if its level is.
    · have tellable : event.IsTellable cutoff := fun _ => writable
      rw [if_pos tellable, if_pos composed, if_pos writable]
      cases shown : event.isShown cutoff <;> simp [Told.andThen, linesOf, shown]
    -- The first text that cannot be written is where it ends.
    · have broken : ¬event.IsTellable cutoff := fun tellable => writable (tellable composed)
      rw [if_neg broken, if_pos composed, if_neg writable]
  · -- What is not even put together is not shown.
    have tellable : event.IsTellable cutoff := fun put => absurd put composed
    have hidden : event.isShown cutoff = false :=
      Bool.eq_false_iff.mpr fun shown => composed (Event.isComposed_of_isShown shown)
    rw [if_pos tellable, if_neg composed]
    simp [Told.andThen, linesOf, hidden]

/-- Telling goes on to the first event that cannot be told, and shows what comes before it. -/
theorem tellAll_eq (cutoff : Level) (events : List Event) :
    tellAll cutoff events =
      ⟨linesOf cutoff (events.takeWhile fun event => event.IsTellable cutoff),
        if ∀ event ∈ events, event.IsTellable cutoff then .ok () else .error .unwritable⟩ := by
  -- What can be told goes on to the next event, what cannot ends the lines here.
  induction events with
  | nil => rfl
  | cons event events ih =>
    rw [tellAll_cons, ih]
    by_cases tellable : event.IsTellable cutoff
    · simp only [tellable, if_true, Told.andThen, List.takeWhile_cons, decide_true,
        List.forall_mem_cons, true_and]
      simp [linesOf, List.filter_cons]
      split <;> rfl
    · simp [tellable, linesOf]

/-- Events in two rows are told one row after the other. -/
theorem tellAll_append (cutoff : Level) (first second : List Event) :
    tellAll cutoff (first ++ second) =
      (tellAll cutoff first).andThen fun _ => tellAll cutoff second := by
  induction first with
  | nil => rfl
  | cons event events ih =>
    -- The events behind the first one are told by induction.
    rw [List.cons_append, tellAll_cons, ih, tellAll_cons]
    split
    · rw [Told.andThen_andThen]
    · rfl

end Events

namespace Narrated

variable {cutoff : Level} {narrated : Narrated α}

/-- A computation is followed up to the first event that cannot be told; if there is none, it ends
as it does by itself, but for a message that cannot be written. -/
theorem told_eq (cutoff : Level) (narrated : Narrated α) :
    narrated.told cutoff =
      ⟨linesOf cutoff (narrated.events.takeWhile fun event => event.IsTellable cutoff),
        if narrated.IsTellable cutoff then reported narrated.outcome else .error .unwritable⟩ := by
  -- The outcome is only reported where all events could be told.
  rw [told, tellAll_eq]
  by_cases tellable : narrated.IsTellable cutoff
  · rw [if_pos tellable, if_pos (show ∀ event ∈ narrated.events, _ from tellable)]
    simp [Told.andThen]
  · rw [if_neg tellable, if_neg (show ¬∀ event ∈ narrated.events, _ from tellable)]
    rfl

/-- How a computation ends for those who follow it. -/
theorem outcome_told (cutoff : Level) (narrated : Narrated α) :
    (narrated.told cutoff).outcome =
      if narrated.IsTellable cutoff then reported narrated.outcome else .error .unwritable := by
  rw [told_eq]

/-- Where everything can be told, nothing keeps later events from being told. -/
theorem takeWhile_of_isTellable (tellable : narrated.IsTellable cutoff) :
    narrated.events.takeWhile (fun event => event.IsTellable cutoff) = narrated.events :=
  List.takeWhile_eq_self_iff.mpr fun event member => decide_eq_true (tellable event member)

/-- Where everything can be told, all lines are shown. -/
theorem told_of_isTellable (tellable : narrated.IsTellable cutoff) :
    narrated.told cutoff = ⟨linesOf cutoff narrated.events, reported narrated.outcome⟩ := by
  rw [told_eq, if_pos tellable, takeWhile_of_isTellable tellable]

/-- What succeeds for those who follow it is what succeeds and can be told. -/
theorem outcome_told_eq_ok_iff {a : α} :
    (narrated.told cutoff).outcome = .ok a ↔
      narrated.IsTellable cutoff ∧ narrated.outcome = .ok a := by
  rw [outcome_told]
  split <;> simp [*]

/-- How a computation ends for those who follow it if it ends as given by itself: in the same way,
unless something that happened cannot be told. -/
def EndsAs (cutoff : Level) (narrated : Narrated α) (outcome : Except Fault α) : Prop :=
  (narrated.told cutoff).outcome =
    if narrated.IsTellable cutoff then outcome else .error .unwritable

/-- A result has no message that would have to be written. -/
theorem endsAs_of_ok {a : α} (succeeded : narrated.outcome = .ok a) :
    narrated.EndsAs cutoff (.ok a) := by
  rw [EndsAs, outcome_told, succeeded, reported_ok]

/-- A fault is met with its message, which has to be one that can be written. -/
theorem endsAs_of_error {fault : Fault} (failed : narrated.outcome = .error fault)
    (writable : fault.message.isWritable = true) : narrated.EndsAs cutoff (.error fault) := by
  rw [EndsAs, outcome_told, failed, reported_error, Fault.reported_of_isWritable writable]

/-- What has been told ends as it is said to end. -/
theorem EndsAs.of_isTellable {outcome : Except Fault α} (ends : narrated.EndsAs cutoff outcome)
    (tellable : narrated.IsTellable cutoff) : (narrated.told cutoff).outcome = outcome :=
  ends.trans (if_pos tellable)

/-- Otherwise it ends with the first text that cannot be written. -/
theorem EndsAs.of_not_isTellable {outcome : Except Fault α} (ends : narrated.EndsAs cutoff outcome)
    (broken : ¬narrated.IsTellable cutoff) : (narrated.told cutoff).outcome = .error .unwritable :=
  ends.trans (if_neg broken)

/-- The events that those who follow a computation are shown. -/
def shown (cutoff : Level) (narrated : Narrated α) : List Event :=
  (narrated.events.takeWhile fun event => event.IsTellable cutoff).filter fun event =>
    event.isShown cutoff

/-- Each event that is shown makes a line. -/
theorem lines_told (cutoff : Level) (narrated : Narrated α) :
    (narrated.told cutoff).lines =
      (narrated.shown cutoff).map fun event => event.text.spelled := by
  rw [told_eq, linesOf, shown]

/-- A result without events is followed as it is. -/
theorem told_pure (cutoff : Level) (a : α) : (pure a : Narrated α).told cutoff = ⟨[], .ok a⟩ := rfl

/-- A fault without an event is met with its message. -/
theorem told_fail (cutoff : Level) (fault : Fault) :
    (fail fault : Narrated α).told cutoff = ⟨[], .error fault.reported⟩ := rfl

/-- Texts might as well be put together at each step: joined computations are followed as the parts
are that they are joined of. -/
theorem told_bind (cutoff : Level) (first : Narrated α) (next : α → Narrated β) :
    (first >>= next).told cutoff =
      (first.told cutoff).andThen fun a => (next a).told cutoff := by
  obtain ⟨events, outcome⟩ := first
  show (andThen ⟨events, outcome⟩ next).told cutoff = _
  cases outcome with
  | error fault =>
    -- Nothing happens after a fault.
    simp only [andThen, told, Told.andThen_andThen]
    rfl
  | ok a =>
    simp only [andThen, told, tellAll_append, Told.andThen_andThen]
    rfl

/-- Joined computations end as their parts do, one after the other. -/
theorem outcome_told_bind (cutoff : Level) (first : Narrated α) (next : α → Narrated β) :
    ((first >>= next).told cutoff).outcome =
      (first.told cutoff).outcome >>= fun a => ((next a).told cutoff).outcome := by
  rw [told_bind, Told.andThen]
  cases (first.told cutoff).outcome <;> rfl

/-- An outcome without events is met with its message. -/
theorem outcome_told_lift (cutoff : Level) (outcome : Except Fault α) :
    ((liftM outcome : Narrated α).told cutoff).outcome = reported outcome := rfl

end Narrated

end CycleSchedule
