import CycleSchedule.Fault
import CycleSchedule.Journal.Event

/-! Computations that tell what happens on the way and may fail, and what is left of them where
their texts are put together. -/

namespace CycleSchedule

/-- The events of a computation, and its result or the fault that ended it. It is carried through as
if every text on the way could be written; what follows from one that cannot be is said below. -/
structure Narrated (α : Type) where
  events : List Event
  outcome : Except Fault α

namespace Narrated

variable {α β : Type}

/-- A result that needed nothing to happen. -/
def done (a : α) : Narrated α := ⟨[], .ok a⟩

/-- One computation after another; a fault keeps the second from happening. -/
def andThen (first : Narrated α) (next : α → Narrated β) : Narrated β :=
  match first.outcome with
  -- What had been told up to the fault stays told.
  | .error fault => ⟨first.events, .error fault⟩
  | .ok a => ⟨first.events ++ (next a).events, (next a).outcome⟩

instance : Monad Narrated where
  pure := done
  bind := andThen

/-- A computation that tells nothing. -/
def ofExcept (outcome : Except Fault α) : Narrated α := ⟨[], outcome⟩

instance : MonadLift (Except Fault) Narrated where
  monadLift := ofExcept

/-- A fault without an event. -/
def fail (fault : Fault) : Narrated α := ⟨[], .error fault⟩

/-- Events alone. -/
def tell (events : List Event) : Narrated Unit := ⟨events, .ok ()⟩

end Narrated

/-- What reaches those who follow a computation: the lines that are shown, and how it ends. -/
structure Told (α : Type) where
  lines : List String
  outcome : Except Fault α

namespace Told

variable {α β : Type}

/-- One computation after another, in the eyes of those who follow both. -/
def andThen (first : Told α) (next : α → Told β) : Told β :=
  match first.outcome with
  | .error fault => ⟨first.lines, .error fault⟩
  | .ok a => ⟨first.lines ++ (next a).lines, (next a).outcome⟩

end Told

/-- The lines of events where messages from a level on are shown. The first text that is put
together and cannot be written is where it ends. -/
def tellAll (cutoff : Level) : List Event → Told Unit
  | [] => ⟨[], .ok ()⟩
  | event :: events =>
    if event.isComposed cutoff then
      match event.text.write? with
      | none => ⟨[], .error .unwritable⟩
      | some line =>
        let rest := tellAll cutoff events
        -- A text may be put together and not be shown.
        if event.isShown cutoff then ⟨line :: rest.lines, rest.outcome⟩ else rest
    else tellAll cutoff events

/-- A computation as it is followed where messages from a level on are shown. Its own fault is only
met if all texts on the way can be written. -/
def Narrated.told {α : Type} (cutoff : Level) (narrated : Narrated α) : Told α :=
  -- The message of the fault is put together last.
  (tellAll cutoff narrated.events).andThen fun _ => ⟨[], reported narrated.outcome⟩

end CycleSchedule
