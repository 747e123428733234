import CycleSchedule.Proofs.Scheduler.History
import CycleSchedule.Proofs.Scheduler.Logged

/-! Scheduling with a journal at hand: the verbosity decides which lines are written, and nothing
else. -/

namespace CycleSchedule

namespace Logged

/-- Runs a scheduler on a problem. -/
def run {ν κ : Type} [Quantity ν κ] [Measure κ] (scheduler : Scheduler) (problem : Problem ν) :
    Logged (AlgorithmResult κ) :=
  match scheduler with
  | .asap => asap problem
  | .simplex .basic last minimizeSum =>
    Scheduler.measuredStarts <$> precedence problem last minimizeSum
  | .simplex .cyclic last minimizeSum =>
    Scheduler.measuredStarts <$> cyclic problem last minimizeSum
  | .simplex .sharedOperators last minimizeSum =>
    Scheduler.measuredStarts <$> shared problem last minimizeSum

/-- The schedule of a problem that passes its check, confirmed if the settings ask for it. -/
def attempt (problem : Problem Value) (config : SchedulingConfig) (variant : Variant) :
    Logged (AlgorithmResult Int) := do
  -- Nothing is told of before the scheduler runs.
  problem.check (some variant)
  let task ← problem.whole
  let scheduler ← Scheduler.create task config.algorithm variant config.last config.minimizeSum
  let result ← run scheduler task
  if config.verifySolution then task.confirm result.starts.known result.interval variant
  return result

/-- Says what is to be scheduled, and warns if that leaves something out. -/
def opening (problem : Problem Value) (config : SchedulingConfig) (variant : Variant) :
    Logged Unit := do
  emit (.schedulingStarted problem.name variant config.algorithm.name)
  if variant = .cyclic && problem.hasLimits then emit (.limitsIgnored problem.name)

/-- What is made of an attempt: a schedule is stored, and a failure is told. -/
def settle (problem : Problem Value) (variant : Variant) :
    Except Fault (AlgorithmResult Int) → Logged (ScheduleResult × Problem Value)
  | .ok result => do
    let (stored, outcome) := problem.applySchedule result.starts.known result.interval
    outcome
    return (.found variant result, stored)
  | .error fault =>
    match fault.failure? with
    | some failure => do
      -- The message of the fault is there already, and is put together with a few words more.
      emit (.schedulingFailed fault.message)
      return (.failed variant failure, problem)
    | none => throw fault

/-- The outcome of scheduling a problem, and the problem with the schedule stored if there is one;
after a failure the problem is as it was. -/
def schedule (problem : Problem Value) (config : SchedulingConfig) :
    Logged (ScheduleResult × Problem Value) := do
  let variant := config.variant.getD problem.inferVariant
  opening problem config variant
  let outcome ← attempted (attempt problem config variant)
  settle problem variant outcome

/-- A scheduler run that is journalled at once records what the narrated run tells. -/
theorem records_run {ν κ : Type} [Quantity ν κ] [Measure κ] (scheduler : Scheduler)
    (problem : Problem ν) :
    Records (run scheduler problem : Logged (AlgorithmResult κ)) (scheduler.run problem) := by
  unfold run Scheduler.run
  -- Each scheduler has its journalled twin, and reading starts as measures tells of nothing.
  split
  · exact records_asap problem
  · exact (records_precedence problem _ _).map _
  · exact (records_cyclic problem _ _).map _
  · exact (records_shared problem _ _).map _

variable (problem : Problem Value) (config : SchedulingConfig) (variant : Variant)

/-- So does an attempt: creating the scheduler, running it and checking the result. -/
theorem records_attempt :
    Records (attempt problem config variant) (problem.attempt config variant) := by
  unfold attempt Problem.attempt
  -- Checks pass in silence, and what the scheduler tells of is recorded in between.
  refine (records_ofExcept _).bind fun _ => ?_
  refine (records_ofExcept _).bind fun task => ?_
  refine (records_ofExcept _).bind fun scheduler => ?_
  refine (records_run scheduler task).bind fun result => ?_
  exact ((records_ofExcept _).bind fun _ => records_pure _).ite (records_pure _)

/-- What is said before scheduling starts is what is told of it. -/
theorem records_opening :
    Records (opening problem config variant)
      (Narrated.tell (problem.opening config variant)) := by
  unfold opening Problem.opening
  dsimp only
  -- Only a warning about limits may follow the opening message.
  split
  · exact (records_emit rfl).after (records_emit rfl)
  · exact (records_emit rfl).last (records_pure _)

/-- What is made of an attempt, as it is told. -/
def narratedSettlement (outcome : Except Fault (AlgorithmResult Int)) :
    Narrated (ScheduleResult × Problem Value) :=
  match outcome with
  | .ok result =>
    let (stored, outcome) := problem.applySchedule result.starts.known result.interval
    ⟨[], outcome.map fun _ => (.found variant result, stored)⟩
  | .error fault =>
    match fault.failure? with
    | some failure => ⟨[.schedulingFailed fault.message], .ok (.failed variant failure, problem)⟩
    | none => ⟨[], .error fault⟩

/-- Scheduling tells what comes first, then of the attempt, and then what is made of it. -/
theorem schedule_eq :
    problem.schedule config =
      let variant := config.variant.getD problem.inferVariant
      let attempted := problem.attempt config variant
      let settlement := narratedSettlement problem variant attempted.outcome
      ⟨problem.opening config variant ++ (attempted.events ++ settlement.events),
        settlement.outcome⟩ := by
  unfold Problem.schedule narratedSettlement
  dsimp only
  -- The outcome of the attempt decides what is stored and whether a failure is told of.
  cases (problem.attempt config (config.variant.getD problem.inferVariant)).outcome with
  | ok result => simp
  | error fault => cases failure : fault.failure? <;> simp [failure]

/-- A fault is settled as it is told, whether its message can be written or not. -/
theorem records_settle (outcome : Except Fault (AlgorithmResult Int)) :
    Records (settle problem variant (reported outcome))
      (narratedSettlement problem variant outcome) := by
  cases outcome with
  | ok result =>
    -- Storing the schedule is not told of.
    unfold settle narratedSettlement
    dsimp only [reported_ok]
    cases (problem.applySchedule result.starts.known result.interval).2 with
    | ok _ => exact records_pure _
    | error fault => exact records_fail fault
  | error fault =>
    -- A fault of another kind reaches the caller as it is.
    have failed : Records (throw fault.reported : Logged (ScheduleResult × Problem Value))
      (Narrated.fail fault) := records_fail fault
    rw [reported_error]
    cases writable : fault.message.isWritable with
    | true =>
      rw [Fault.reported_of_isWritable writable] at failed ⊢
      unfold settle narratedSettlement
      dsimp only
      cases failure : fault.failure? with
      | none => exact failed
      | some failure => exact (records_emit rfl).last (records_pure _)
    | false =>
      -- What is passed on is no failure of scheduling, whatever the fault is.
      rw [Fault.reported_of_not_isWritable writable] at failed ⊢
      unfold narratedSettlement
      dsimp only
      cases failure : fault.failure? with
      | none => exact failed
      | some failure =>
        exact records_unwritable rfl (by simpa [Event.text] using writable)

/-- Scheduling with a journal at hand records what scheduling tells. -/
theorem records_schedule : Records (schedule problem config) (problem.schedule config) := by
  rw [schedule_eq]
  exact (records_opening problem config _).after
    ((records_attempt problem config _).attempted (records_settle problem _ _) rfl)

end Logged

/-- A greater verbosity lets less important events through. -/
theorem rank_threshold_le {low high : Int} (le : low ≤ high) :
    (threshold high).rank ≤ (threshold low).rank := by
  unfold threshold
  split_ifs <;> first | omega | decide

section Verbosities

variable {low high : Int} {event : Event}

/-- What the lesser of two verbosities shows, the greater one shows as well. -/
theorem isShown_threshold (le : low ≤ high) (shown : event.isShown (threshold low) = true) :
    event.isShown (threshold high) = true := by
  -- The lesser verbosity has the higher threshold.
  have ranks := rank_threshold_le le
  unfold Event.isShown at shown ⊢
  cases level : event.level? with
  | none => simp [level] at shown
  | some here =>
    simp only [level, Level.passes, decide_eq_true_eq] at shown ⊢
    omega

/-- What can be told at the greater of two verbosities can be told at the lesser one, where no more
texts are put together. -/
theorem isTellable_threshold (le : low ≤ high) (tellable : event.IsTellable (threshold high)) :
    event.IsTellable (threshold low) := by
  intro composed
  refine tellable ?_
  unfold Event.isComposed at composed ⊢
  -- What the lesser verbosity puts together the greater one puts together too.
  rcases Bool.or_eq_true _ _ ▸ composed with always | shown
  · simp [always]
  · simp [isShown_threshold le shown]

/-- Of what the greater of two verbosities shows, the threshold of the other one leaves what the
other one shows by itself, up to where the greater one ends. -/
theorem filter_shown_threshold {α : Type} (le : low ≤ high) (narrated : Narrated α) :
    (narrated.shown (threshold high)).filter (fun event => event.isShown (threshold low)) =
      (narrated.events.takeWhile fun event => event.IsTellable (threshold high)).filter
        fun event => event.isShown (threshold low) := by
  rw [Narrated.shown, List.filter_filter]
  -- What the lesser verbosity shows the greater one shows too.
  refine List.filter_congr fun event _ => ?_
  cases shown : event.isShown (threshold low) with
  | false => rfl
  | true => rw [isShown_threshold le shown]; rfl

/-- The greater of two verbosities ends no later than the other one. -/
theorem filter_shown_isPrefix {α : Type} (le : low ≤ high) (narrated : Narrated α) :
    (narrated.shown (threshold high)).filter (fun event => event.isShown (threshold low)) <+:
      narrated.shown (threshold low) := by
  rw [filter_shown_threshold le, Narrated.shown]
  refine List.IsPrefix.filter _ ?_
  -- Whatever can be told at the greater one comes before what ends the other one.
  have within : (narrated.events.takeWhile fun event => event.IsTellable (threshold high)) =
      (narrated.events.takeWhile fun event => event.IsTellable (threshold low)).takeWhile
        fun event => event.IsTellable (threshold high) := by
    rw [List.takeWhile_takeWhile]
    refine congrArg (List.takeWhile · narrated.events) (funext fun event => ?_)
    simpa using isTellable_threshold le
  rw [within]
  exact List.takeWhile_prefix _

end Verbosities

/-- A computation that succeeds by itself fills the new stream of a journal with the lines that are
shown of it, whether it gets through or not. -/
theorem Narrated.writtenTo_setUp {α : Type} {narrated : Narrated α} {a : α}
    (succeeded : narrated.outcome = .ok a) (journal : Journal) (verbosity : Int) :
    let after : Journal := ⟨threshold verbosity, journal.streams ++
      [Command.unlines ((narrated.shown (threshold verbosity)).map fun event =>
        event.text.spelled)], true⟩
    (narrated.told (threshold verbosity)).writtenTo (journal.setUp verbosity) =
      if narrated.IsTellable (threshold verbosity) then .ok a after
      else .error .unwritable after := by
  intro after
  have ends : (narrated.told (threshold verbosity)).outcome = _ := endsAs_of_ok succeeded
  -- The new stream holds the lines that are shown, and no others.
  have written : (journal.setUp verbosity).addLines (narrated.told (threshold verbosity)).lines =
      after := by
    rw [lines_told, Journal.addLines_setUp]
  rw [Told.writtenTo, written, ends]
  split_ifs <;> rfl

/-- Verbosity only filters, up to the first text that cannot be written. Whatever the problem, the
settings and the journal so far, scheduling with the journal set up for any verbosity writes one
line for each event that is shown there, in order, and comes to one and the same result and stored
problem, unless a text that is put together at that verbosity cannot be written. If the greater of
two verbosities gets through, so does the lesser one, and shows just those events whose level
reaches its threshold; if it does not, what it has shown of these comes first among what the lesser
one shows. -/
theorem verbosity_only_filters (problem : Problem Value) (config : SchedulingConfig)
    (journal : Journal) {low high : Int} (le : low ≤ high) :
    let narrated := problem.schedule config
    let shown := fun verbosity => narrated.shown (threshold verbosity)
    (∃ (result : ScheduleResult) (stored : Problem Value), ∀ verbosity,
      let after : Journal := ⟨threshold verbosity, journal.streams ++
        [Command.unlines ((shown verbosity).map fun event => event.text.spelled)], true⟩
      Logged.schedule problem config (journal.setUp verbosity) =
        if narrated.IsTellable (threshold verbosity) then .ok (result, stored) after
        else .error .unwritable after) ∧
      (narrated.IsTellable (threshold high) → narrated.IsTellable (threshold low) ∧
        shown low = (shown high).filter fun event => event.isShown (threshold low)) ∧
      (shown high).filter (fun event => event.isShown (threshold low)) <+: shown low := by
  intro narrated shown
  refine ⟨?_, fun tellable => ?_, filter_shown_isPrefix le narrated⟩
  · obtain ⟨events, result, keeps⟩ := problem.exists_schedule config
    refine ⟨result, problem.keeping result, fun verbosity => ?_⟩
    -- A run is compared with what scheduling tells, not with another run.
    have succeeded : narrated.outcome = .ok (result, problem.keeping result) := by
      rw [show narrated = _ from keeps problem rfl]
    rw [Logged.records_schedule]
    exact Narrated.writtenTo_setUp succeeded journal verbosity
  · have tellableLow : narrated.IsTellable (threshold low) := fun event member =>
      isTellable_threshold le (tellable event member)
    refine ⟨tellableLow, ?_⟩
    -- Neither of them ends before all has been told.
    show narrated.shown (threshold low) = (narrated.shown (threshold high)).filter _
    rw [filter_shown_threshold le, Narrated.takeWhile_of_isTellable tellable, Narrated.shown,
      Narrated.takeWhile_of_isTellable tellableLow]

/-- A product that has to wait is told of, and the pivots behind it are not. -/
theorem verbosity_only_filters_products :
    (1 : Int) ≤ 3 ∧
    ∃ (result : ScheduleResult) (stored : Problem Value) (pivots : String),
      Logged.schedule Problem.sumOfProducts.values .default (Journal.initial.setUp 3) =
        .ok (result, stored) ⟨.debug, [pivots], true⟩ ∧
      Logged.schedule Problem.sumOfProducts.values .default (Journal.initial.setUp 1) =
        .ok (result, stored) ⟨.changes,
          ["Scheduling problem 'sum of products' (shared_operators variant, simplex)\n" ++
            "Unconstrained start time of sum: cycle 2\n" ++
            "Delayed operation y from cycle 0 to 2 (mul limit 1)\n" ++
            "Scheduled operation x at cycle 0\n" ++
            "Scheduled operation y at cycle 2\n" ++
            "Scheduled operation sum at cycle 4\n"], true⟩ := by
  obtain ⟨⟨result, stored, runs⟩, filtered, _⟩ := verbosity_only_filters
    Problem.sumOfProducts.values .default Journal.initial (by decide : (1 : Int) ≤ 3)
  -- All numbers are short, so that both runs get through.
  have through : (Problem.sumOfProducts.values.schedule .default).IsTellable (threshold 3) := by
    decide +kernel
  refine ⟨by decide, result, stored, _, (runs 3).trans (if_pos through), ?_⟩
  refine ((runs 1).trans (if_pos (filtered through).1)).trans ?_
  congr 1
  decide +kernel

/-- The two starts of a fork need not be written where nobody is shown the pivots; on the way to
them there is a number with too many digits, which a verbosity that shows pivots comes upon. -/
theorem fork_lost_by_pivots :
    let problem := (Problem.fork (Text.leastUnwritable - 1)).values
    let config : SchedulingConfig := { SchedulingConfig.default with
      variant := some .basic, last := some "first", minimizeSum := false }
    (∃ (result : ScheduleResult) (stored : Problem Value), result.ok = true ∧
      Logged.schedule problem config (Journal.initial.setUp 0) =
        .ok (result, stored) ⟨.error, [""], true⟩) ∧
      ∃ lines, Logged.schedule problem config (Journal.initial.setUp 3) =
        .error .unwritable ⟨.debug, [lines], true⟩ := by
  intro problem config
  -- The result is found, since nothing keeps the account from ending.
  have succeeds : (problem.schedule config).outcome.toOption.any (·.1.ok) = true := by
    decide +kernel
  cases succeeded : (problem.schedule config).outcome with
  | error fault =>
    rw [succeeded] at succeeds
    cases succeeds
  | ok outcome =>
    rw [succeeded] at succeeds
    refine ⟨⟨outcome.1, outcome.2, succeeds, ?_⟩, ?_⟩
    · -- Only what is told before a text is shown is put together.
      have through : (problem.schedule config).IsTellable (threshold 0) := by decide +kernel
      have silent : (problem.schedule config).shown (threshold 0) = [] := by decide +kernel
      rw [Logged.records_schedule]
      refine (Narrated.writtenTo_setUp succeeded Journal.initial 0).trans ?_
      rw [if_pos through, silent]
      rfl
    · -- At the highest verbosity a pivot shows a number that cannot be written.
      have stuck : ¬ (problem.schedule config).IsTellable (threshold 3) := by decide +kernel
      rw [Logged.records_schedule]
      exact ⟨_, (Narrated.writtenTo_setUp succeeded Journal.initial 3).trans (if_neg stuck)⟩

end CycleSchedule
