import CycleSchedule.Command.Run
import CycleSchedule.Journal.Stream
import CycleSchedule.Proofs.Told

/-! Computations that put texts together and write them to a journal as they go, and when what
becomes of them is what is told of them. -/

namespace CycleSchedule

/-- A computation that may look at a journal and write to it; what has been written stays, even
after a fault. -/
abbrev Logged (α : Type) := EStateM Fault Journal α

namespace Logged

variable {α β : Type}

/-- A computation that writes nothing. The message of a fault is put together where it occurs. -/
def ofExcept (outcome : Except Fault α) : Logged α :=
  match reported outcome with
  | .ok a => return a
  | .error fault => throw fault

instance : MonadLift (Except Fault) Logged where
  monadLift := ofExcept

/-- Ends with a fault, once its message is put together. -/
def fail (fault : Fault) : Logged α := throw fault.reported

/-- Writes a line, if the journal lets its level through. -/
def writeLine (level : Level) (line : String) : Logged Unit := fun journal =>
  .ok () (journal.write level line [])

/-- Puts the text of an event together, and then writes it if the journal lets its level through. -/
def emit (event : Event) : Logged Unit := do
  -- Whether anyone is going to read the text is only asked when it is there.
  let line ← event.text.written
  match event.level? with
  | some level => writeLine level line
  | none => return ()

/-- Does something only if the journal lets a level through. -/
def whenEnabled (level : Level) (action : Logged Unit) : Logged Unit := fun journal =>
  if journal.enables level then action journal else .ok () journal

/-- Writes several things that happened, one after the other. -/
def emitAll : List Event → Logged Unit
  | [] => return ()
  | event :: events => do
    emit event
    emitAll events

/-- The outcome of a computation, be it a fault. -/
def attempted (action : Logged α) : Logged (Except Fault α) := fun journal =>
  match action journal with
  | .ok a after => .ok (.ok a) after
  | .error fault after => .ok (.error fault) after

end Logged

/-- The journal with lines at the end of its last stream, if that takes any. -/
def Journal.addLines (journal : Journal) (lines : List String) : Journal :=
  if journal.connected then
    { journal with
      streams := lines.foldl (fun streams line => appendLine line streams) journal.streams }
  else journal

/-- What comes of a computation when the lines that are shown of it are written to a journal. -/
def Told.writtenTo {α : Type} (told : Told α) (journal : Journal) :
    EStateM.Result Fault Journal α :=
  match told.outcome with
  | .ok a => .ok a (journal.addLines told.lines)
  | .error fault => .error fault (journal.addLines told.lines)

/-- A computation that, whatever the journal lets through, writes the lines that are shown of
another one there, and ends as that one does for those who follow it. -/
def Records {α : Type} (logged : Logged α) (narrated : Narrated α) : Prop :=
  ∀ journal, logged journal = (narrated.told journal.cutoff).writtenTo journal

variable {α β : Type}

namespace Journal

variable {journal : Journal} {event : Event} {events : List Event}

/-- Without a line there is nothing to do. -/
@[simp] theorem addLines_nil (journal : Journal) : journal.addLines [] = journal := by
  unfold addLines
  split <;> rfl

/-- Lines do not change what is let through. -/
@[simp] theorem cutoff_addLines (journal : Journal) (lines : List String) :
    (journal.addLines lines).cutoff = journal.cutoff := by
  unfold addLines
  split <;> rfl

/-- Lines may be written in two goes. -/
theorem addLines_append (journal : Journal) (first second : List String) :
    journal.addLines (first ++ second) = (journal.addLines first).addLines second := by
  unfold addLines
  -- Without a stream nothing is written either way.
  by_cases connected : journal.connected = true
  · simp [connected, List.foldl_append]
  · simp [connected]

/-- A message without values is a line, if its level is let through. -/
theorem write_eq (journal : Journal) (level : Level) (line : String) :
    journal.write level line [] =
      journal.addLines (if level.passes journal.cutoff then [line] else []) := by
  -- There is no place in the message that could not be filled.
  have whole : messageText line [] = some line := rfl
  by_cases passes : level.passes journal.cutoff = true
  · simp [write, addLines, enables, passes, whole]
  · simp [write, enables, passes]

/-- A line goes to the end of the last stream. -/
theorem appendLine_append (line : String) (streams : List String) (last : String) :
    appendLine line (streams ++ [last]) = streams ++ [last ++ line ++ "\n"] := by
  induction streams with
  | nil => rfl
  | cons first streams ih =>
    -- The first stream is not the last one.
    obtain ⟨second, rest, same⟩ : ∃ second rest, streams ++ [last] = second :: rest :=
      List.exists_cons_of_ne_nil (by simp)
    rw [same] at ih
    rw [List.cons_append, same, appendLine, ih]
    · rfl
    · intro nothing
      cases nothing

/-- Lines that are put out begin with the first of them. -/
theorem unlines_cons (line : String) (lines : List String) :
    Command.unlines (line :: lines) = line ++ "\n" ++ Command.unlines lines := by
  simp [Command.unlines]

/-- Lines that come once a journal is set up fill its new stream. -/
theorem addLines_setUp (journal : Journal) (verbosity : Int) (lines : List String) :
    (journal.setUp verbosity).addLines lines =
      ⟨threshold verbosity, journal.streams ++ [Command.unlines lines], true⟩ := by
  -- The induction is on the lines, behind whatever has been written so far.
  suffices general : ∀ last : String,
      lines.foldl (fun streams line => appendLine line streams) (journal.streams ++ [last]) =
        journal.streams ++ [last ++ Command.unlines lines] by
    simpa [setUp, addLines] using general ""
  induction lines with
  | nil => simp [Command.unlines]
  | cons line lines ih =>
    intro last
    rw [List.foldl_cons, appendLine_append, ih, unlines_cons]
    simp only [String.append_assoc]

end Journal

variable {logged : Logged α} {narrated : Narrated α} {events more : List Event}

namespace Told

variable {told : Told α} {next : α → Told β}

/-- What is followed in two parts is written in two parts, the second of them only if the first has
come to a result. -/
theorem writtenTo_andThen (told : Told α) (next : α → Told β) (journal : Journal) :
    (told.andThen next).writtenTo journal =
      match told.writtenTo journal with
      | .ok a after => (next a).writtenTo after
      | .error fault after => .error fault after := by
  obtain ⟨lines, outcome⟩ := told
  -- After a fault nothing of the second part is written.
  cases outcome with
  | error fault => rfl
  | ok a =>
    simp only [andThen, writtenTo, Journal.addLines_append]

/-- A result that comes without lines leaves the journal as it is. -/
theorem writtenTo_ok (a : α) (journal : Journal) :
    (⟨[], .ok a⟩ : Told α).writtenTo journal = .ok a journal := by
  rw [writtenTo, Journal.addLines_nil]

/-- So does a fault that comes without lines. -/
theorem writtenTo_error (fault : Fault) (journal : Journal) :
    (⟨[], .error fault⟩ : Told α).writtenTo journal = .error fault journal := by
  rw [writtenTo, Journal.addLines_nil]

end Told

/-- A result is recorded by writing nothing. -/
theorem records_pure (a : α) : Records (pure a : Logged α) (pure a) := fun journal =>
  (Told.writtenTo_ok a journal).symm

/-- An outcome is recorded by putting its message together, if it has one. -/
theorem records_ofExcept (outcome : Except Fault α) :
    Records (liftM outcome : Logged α) (liftM outcome) := by
  intro journal
  show Logged.ofExcept outcome journal = Told.writtenTo ⟨[], reported outcome⟩ journal
  -- A fault that reaches the caller is reported, and nothing is written.
  cases outcome with
  | ok a => exact (Told.writtenTo_ok a journal).symm
  | error fault => exact (Told.writtenTo_error fault.reported journal).symm

/-- A fault is recorded by putting its message together. -/
theorem records_fail (fault : Fault) :
    Records (Logged.fail fault : Logged α) (Narrated.fail fault) :=
  records_ofExcept (.error fault)

/-- Where an event that is always put together cannot be written, that is what ends it. -/
theorem records_unwritable {event : Event} {outcome : Except Fault α}
    (always : event.isGuarded = false) (unwritable : event.text.isWritable = false) :
    Records (throw .unwritable : Logged α) ⟨event :: events, outcome⟩ := by
  intro journal
  -- The text is always put together, so that it cannot be written is noticed.
  have broken : ¬event.IsTellable journal.cutoff := fun tellable => by
    rw [tellable (by simp [Event.isComposed, always])] at unwritable
    cases unwritable
  rw [Narrated.told, tellAll_cons, if_neg broken]
  exact (Told.writtenTo_error .unwritable journal).symm

/-- Joined computations record what joined ones tell if the first of them does, and the second too
on what the first comes to. -/
theorem Records.bind_of_ok {next : α → Logged β} {tellNext : α → Narrated β}
    (first : Records logged narrated)
    (then_ : ∀ a, narrated.outcome = .ok a → Records (next a) (tellNext a)) :
    Records (logged >>= next) (narrated >>= tellNext) := by
  intro journal
  show EStateM.bind logged next journal = _
  rw [EStateM.bind, first journal, Narrated.told_bind, Told.writtenTo_andThen]
  cases ended : (narrated.told journal.cutoff).outcome with
  | error fault =>
    -- After a fault nothing more is written or told.
    simp only [Told.writtenTo, ended]
  | ok a =>
    have result := (Narrated.outcome_told_eq_ok_iff.mp ended).2
    simp only [Told.writtenTo, ended]
    rw [then_ a result, Journal.cutoff_addLines, Told.writtenTo]

/-- Joined computations record what joined ones tell if each of them does. -/
theorem Records.bind {next : α → Logged β} {tellNext : α → Narrated β}
    (first : Records logged narrated) (then_ : ∀ a, Records (next a) (tellNext a)) :
    Records (logged >>= next) (narrated >>= tellNext) :=
  first.bind_of_ok fun a _ => then_ a

/-- After a computation that succeeds, only what is made of its result has still to be recorded. -/
theorem Records.after {a : α} {next : α → Logged β} {outcome : Except Fault β}
    (first : Records logged ⟨events, .ok a⟩) (then_ : Records (next a) ⟨more, outcome⟩) :
    Records (logged >>= next) ⟨events ++ more, outcome⟩ := by
  have joined : Records (logged >>= next) (⟨events, .ok a⟩ >>= fun _ => ⟨more, outcome⟩) :=
    first.bind_of_ok fun b same => Except.ok.inj same ▸ then_
  exact joined

/-- If nothing is told after a computation, what it tells is all there is. -/
theorem Records.last {a : α} {next : α → Logged β} {outcome : Except Fault β}
    (first : Records logged ⟨events, .ok a⟩) (then_ : Records (next a) ⟨[], outcome⟩) :
    Records (logged >>= next) ⟨events, outcome⟩ := by
  simpa using first.after then_

/-- Steps record what the steps tell that they stand for. -/
theorem records_foldlM {step : β → α → Logged β} {tellStep : β → α → Narrated β}
    (each : ∀ state item, Records (step state item) (tellStep state item)) (items : List α)
    (first : β) : Records (items.foldlM step first) (items.foldlM tellStep first) := by
  -- By induction on the items, from whatever state the first of them meets.
  induction items generalizing first with
  | nil => exact records_pure first
  | cons item items ih =>
    rw [List.foldlM_cons, List.foldlM_cons]
    exact (each first item).bind ih

/-- Of two computations the one that is chosen has to be recorded. -/
theorem Records.ite {condition : Prop} [Decidable condition] {other : Logged α}
    {tellOther : Narrated α} (yes : Records logged narrated) (no : Records other tellOther) :
    Records (if condition then logged else other)
      (if condition then narrated else tellOther) := by
  split
  · exact yes
  · exact no

/-- What is made of a result adds nothing to write. -/
theorem Records.map (f : α → β) (records : Records logged narrated) :
    Records (f <$> logged) (f <$> narrated) :=
  records.bind fun a => records_pure (f a)

/-- A single event as it is told. -/
theorem Narrated.told_tell_singleton (cutoff : Level) (event : Event) :
    (tell [event]).told cutoff =
      if event.IsTellable cutoff then ⟨linesOf cutoff [event], .ok ()⟩
      else ⟨[], .error .unwritable⟩ := by
  show (tellAll cutoff [event]).andThen _ = _
  rw [tellAll_cons]
  -- A line is written if the event can be told, and the account ends here otherwise.
  split
  · simp [Told.andThen, tellAll, tell]
  · rfl

/-- Where the text of an event is put together, it is written as it is told. -/
theorem Logged.emit_eq {journal : Journal} {event : Event}
    (composed : event.isComposed journal.cutoff = true) :
    emit event journal = ((Narrated.tell [event]).told journal.cutoff).writtenTo journal := by
  show EStateM.bind (Logged.ofExcept event.text.written) _ journal = _
  rw [Narrated.told_tell_singleton, Phrase.written_eq, EStateM.bind]
  by_cases writable : event.text.isWritable = true
  · have tellable : event.IsTellable journal.cutoff := fun _ => writable
    rw [if_pos tellable, if_pos writable]
    -- What is left is to write the line, if the event is a message and its level is let through.
    show _ = EStateM.Result.ok () (journal.addLines (linesOf journal.cutoff [event]))
    cases level : event.level? with
    | none => simp [ofExcept, linesOf, Event.isShown, level, pure, EStateM.pure]
    | some here =>
      by_cases passes : here.passes journal.cutoff = true <;>
        simp [ofExcept, writeLine, Journal.write_eq, linesOf, Event.isShown, level, passes, pure,
          EStateM.pure]
  · -- A text that is composed and cannot be written breaks the account.
    have broken : ¬event.IsTellable journal.cutoff := fun tellable => writable (tellable composed)
    rw [if_neg broken, if_neg writable]
    exact (Told.writtenTo_error .unwritable journal).symm

/-- Where the texts of events are put together, they are written as they are told. -/
theorem Logged.emitAll_eq {journal : Journal}
    (composed : ∀ event ∈ events, event.isComposed journal.cutoff = true) :
    emitAll events journal = ((Narrated.tell events).told journal.cutoff).writtenTo journal := by
  -- By induction on the events; lines that are written do not change what is let through.
  induction events generalizing journal with
  | nil => exact records_pure () journal
  | cons event events ih =>
    obtain ⟨here, there⟩ := List.forall_mem_cons.mp composed
    show EStateM.bind (emit event) (fun _ => emitAll events) journal = _
    have joined : Narrated.tell (event :: events) =
        Narrated.tell [event] >>= fun _ => Narrated.tell events := rfl
    rw [EStateM.bind, emit_eq here, joined, Narrated.told_bind, Told.writtenTo_andThen]
    cases ended : ((Narrated.tell [event]).told journal.cutoff).outcome with
    | error fault => simp only [Told.writtenTo, ended]
    | ok _ =>
      simp only [Told.writtenTo, ended]
      rw [ih (by simpa using there), Journal.cutoff_addLines, Told.writtenTo]

/-- An event that is not guarded is written as it is told. -/
theorem records_emit {event : Event} (always : event.isGuarded = false) :
    Records (Logged.emit event) (Narrated.tell [event]) := fun _ =>
  Logged.emit_eq (by simp [Event.isComposed, always])

/-- A label that is put together and shown to nobody is told of by its text alone. -/
theorem Records.labelled {text : Phrase} {next : String → Logged β} {tellNext : Narrated β}
    (records : Records (next text.spelled) tellNext) :
    Records ((liftM text.written : Logged String) >>= next)
      (Narrated.tell [.labelled text] >>= fun _ => tellNext) := by
  intro journal
  show EStateM.bind (Logged.ofExcept text.written) next journal = _
  rw [EStateM.bind, Narrated.told_bind, Narrated.told_tell_singleton, Phrase.written_eq]
  -- A label that can be written passes, and one that cannot ends both sides before anything else.
  by_cases writable : text.isWritable = true
  · have tellable : (Event.labelled text).IsTellable journal.cutoff := fun _ => writable
    rw [if_pos tellable, if_pos writable]
    exact records journal
  · have broken : ¬(Event.labelled text).IsTellable journal.cutoff := fun tellable =>
      writable (tellable rfl)
    rw [if_neg broken, if_neg writable]
    exact (Told.writtenTo_error .unwritable journal).symm

/-- Events behind a guard for their level are written as they are told. -/
theorem records_whenEnabled {level : Level} {action : Logged Unit}
    (guarded : ∀ event ∈ events, event.isGuarded = true ∧ event.level? = some level)
    (enabled : ∀ journal, (∀ event ∈ events, event.isComposed journal.cutoff = true) →
      action journal = ((Narrated.tell events).told journal.cutoff).writtenTo journal) :
    Records (Logged.whenEnabled level action) (Narrated.tell events) := by
  intro journal
  have composed : ∀ event ∈ events, event.isComposed journal.cutoff = journal.enables level := by
    intro event member
    obtain ⟨isGuarded, isLevel⟩ := guarded event member
    simp [Event.isComposed, Event.isShown, isGuarded, isLevel, Journal.enables]
  unfold Logged.whenEnabled
  -- What is enabled is run as it is.
  split
  · rename_i passes
    exact enabled journal fun event member => (composed event member).trans passes
  · -- What is not put together is neither shown nor found to be unwritable.
    rename_i disabled
    have silent : ∀ event ∈ events, event.isComposed journal.cutoff = false :=
      fun event member => (composed event member).trans (Bool.eq_false_iff.mpr disabled)
    have tellable : (Narrated.tell events).IsTellable journal.cutoff := fun event member put => by
      rw [silent event member] at put
      cases put
    have hidden : linesOf journal.cutoff events = [] := by
      simp only [linesOf, List.map_eq_nil_iff, List.filter_eq_nil_iff]
      exact fun event member shown =>
        absurd (Event.isComposed_of_isShown shown) (by simp [silent event member])
    rw [Narrated.told_of_isTellable tellable]
    show _ = Told.writtenTo ⟨linesOf journal.cutoff events, .ok ()⟩ journal
    rw [hidden]
    exact (Told.writtenTo_ok () journal).symm

/-- Where the outcome of a computation is taken as a result, what is told of it comes first. If that
could not be told to the end, whoever takes the outcome has to pass it on. -/
theorem Records.attempted {handle : Except Fault α → Logged β} {outcome : Except Fault β}
    (records : Records logged narrated)
    (handled : Records (handle (reported narrated.outcome)) ⟨more, outcome⟩)
    (lost : handle (.error .unwritable) = throw .unwritable) :
    Records (Logged.attempted logged >>= handle) ⟨narrated.events ++ more, outcome⟩ := by
  intro journal
  show EStateM.bind (Logged.attempted logged) handle journal = _
  have split : (⟨narrated.events ++ more, outcome⟩ : Narrated β) =
      Narrated.tell narrated.events >>= fun _ => ⟨more, outcome⟩ := rfl
  rw [EStateM.bind, Logged.attempted, records journal, split, Narrated.told_bind,
    Told.writtenTo_andThen]
  by_cases tellable : narrated.IsTellable journal.cutoff
  · have told : (Narrated.tell narrated.events).IsTellable journal.cutoff := tellable
    rw [Narrated.told_of_isTellable tellable, Narrated.told_of_isTellable told]
    -- Either outcome is handled behind the lines that it leaves.
    have next := handled (journal.addLines (linesOf journal.cutoff narrated.events))
    rw [Journal.cutoff_addLines] at next
    cases ended : reported narrated.outcome with
    | ok a =>
      rw [ended] at next
      exact next
    | error fault =>
      rw [ended] at next
      exact next
  · -- An account that breaks off has lost its end, and the handler passes that on.
    have untold : ¬(Narrated.tell narrated.events).IsTellable journal.cutoff := tellable
    rw [Narrated.told_eq, if_neg tellable, Narrated.told_eq, if_neg untold]
    simp only [Told.writtenTo, lost]
    rfl

end CycleSchedule
