import CycleSchedule.Journal.Narrated

/-! Computations that succeed step by step: what becomes of their outcomes when they are joined. -/

namespace CycleSchedule

section Outcome

variable {α β ε : Type}

/-- A chain goes on with what its first step returned. -/
@[simp] theorem ok_bind (a : α) (next : α → Except ε β) : (Except.ok a >>= next) = next a := rfl

/-- A chain ends with the fault of its first step. -/
@[simp] theorem error_bind (fault : ε) (next : α → Except ε β) :
    ((Except.error fault : Except ε α) >>= next) = .error fault := rfl

/-- The `pure` of outcomes is `ok`, the form that the lemmas here are stated in. -/
@[simp] theorem pure_eq_ok (a : α) : (pure a : Except ε α) = .ok a := rfl

/-- A computation on each item succeeds if it does so on each of them. -/
theorem mapM_ok {items : List α} {step : α → Except ε β} (value : α → β)
    (each : ∀ item ∈ items, step item = .ok (value item)) :
    items.mapM step = .ok (items.map value) := by
  -- By induction on the items: the first succeeds, and so do the others.
  induction items with
  | nil => rfl
  | cons item items ih =>
    rw [List.mapM_cons, each item (by simp),
      ih fun other member => each other (List.mem_cons_of_mem _ member)]
    rfl

/-- Checks of all items succeed if each of them does. -/
theorem forM_ok {items : List α} {step : α → Except ε Unit}
    (each : ∀ item ∈ items, step item = .ok ()) : items.forM step = .ok () := by
  induction items with
  | nil => rfl
  | cons item items ih =>
    rw [List.forM_eq_forM, List.forM_cons, each item (by simp)]
    -- The first check passes, and so do the others by induction.
    exact ih fun other member => each other (List.mem_cons_of_mem _ member)

/-- A computation on each item that maps what another one gives does so on all of them. -/
theorem mapM_map_each {γ : Type} (f : β → γ) (step : α → Except ε β) (items : List α) :
    -- The mapping is taken out of the first step and, by induction, out of all others.
    items.mapM (fun item => f <$> step item) = List.map f <$> items.mapM step := by
  induction items with
  | nil => rfl
  | cons item items ih =>
    rw [List.mapM_cons, List.mapM_cons, ih]
    simp only [bind_map_left, map_bind]
    rfl

/-- Joined computations succeed just when both of them do. -/
theorem bind_eq_ok_iff {first : Except ε α} {next : α → Except ε β} {b : β} :
    (first >>= next) = .ok b ↔ ∃ a, first = .ok a ∧ next a = .ok b := by
  cases first <;> simp

/-- An outcome with a result in it is a success. -/
theorem eq_ok_of_toOption {outcome : Except ε α} {a : α} (found : outcome.toOption = some a) :
    outcome = .ok a := by
  cases outcome with
  | ok b => exact congrArg Except.ok (Option.some.inj found)
  | error fault => cases found

/-- A computation succeeds on all items only if it does so on each of them. -/
theorem exists_of_mapM_ok {items : List α} {step : α → Except ε β} {values : List β}
    (all : items.mapM step = .ok values) : ∀ item ∈ items, ∃ value, step item = .ok value := by
  induction items generalizing values with
  | nil => simp
  | cons item items ih =>
    -- A list of steps succeeds if the first step does and then the rest.
    rw [List.mapM_cons] at all
    obtain ⟨value, here, rest⟩ := bind_eq_ok_iff.mp all
    obtain ⟨_, there, _⟩ := bind_eq_ok_iff.mp rest
    exact List.forall_mem_cons.mpr ⟨⟨value, here⟩, ih there⟩

/-- Checks of all items succeed only if each of them does. -/
theorem of_forM_ok {items : List α} {step : α → Except ε Unit}
    (all : items.forM step = .ok ()) : ∀ item ∈ items, step item = .ok () := by
  induction items with
  | nil => simp
  | cons item items ih =>
    -- The first step has passed, and so have all others.
    rw [List.forM_eq_forM, List.forM_cons] at all
    obtain ⟨_, here, there⟩ := bind_eq_ok_iff.mp all
    exact List.forall_mem_cons.mpr ⟨here, ih there⟩

/-- What each step keeps that succeeds, all of them keep. -/
theorem of_foldlM_ok {step : β → α → Except ε β} {items : List α} {good : β → Prop}
    (keeps : ∀ item before after, good before → step before item = .ok after → good after)
    {first last : β} (start : good first) (all : items.foldlM step first = .ok last) :
    good last := by
  -- By induction on the items, from whatever good state there is.
  induction items generalizing first with
  | nil =>
    obtain rfl := Except.ok.inj all
    exact start
  | cons item items ih =>
    rw [List.foldlM_cons] at all
    obtain ⟨next, here, there⟩ := bind_eq_ok_iff.mp all
    exact ih (keeps item first next start here) there

/-- Steps succeed together only if each of them does, in some state. -/
theorem exists_of_foldlM_ok {step : β → α → Except ε β} {items : List α} {first last : β}
    (all : items.foldlM step first = .ok last) :
    ∀ item ∈ items, ∃ before after, step before item = .ok after := by
  -- By induction on the items, from whatever state the first of them meets.
  induction items generalizing first with
  | nil => simp
  | cons item items ih =>
    rw [List.foldlM_cons] at all
    obtain ⟨next, here, there⟩ := bind_eq_ok_iff.mp all
    exact List.forall_mem_cons.mpr ⟨⟨first, next, here⟩, ih there⟩

/-- A loop that looks values up and goes on with them does the same once all have been looked
up. -/
theorem foldlM_map_eq {γ : Type} (look : α → Except ε β) (next : γ → β → γ) (items : List α)
    (first : γ) :
    items.foldlM (fun state item => do return next state (← look item)) first =
      (items.mapM look).map fun values => values.foldl next first := by
  induction items generalizing first with
  | nil => rfl
  | cons item items ih =>
    rw [List.foldlM_cons, List.mapM_cons]
    -- The first step fails on both sides, or its value goes into the state.
    cases look item with
    | error fault => rfl
    | ok value =>
      refine (ih (next first value)).trans ?_
      cases items.mapM look <;> rfl

/-- A computation that fails with faults of a kind only, if it fails at all. -/
def FailsOnly (kind : ε → Prop) (outcome : Except ε α) : Prop :=
  ∀ fault, outcome = .error fault → kind fault

variable {kind : ε → Prop}

/-- What succeeds fails only as allowed, since it does not fail. -/
theorem failsOnly_ok (a : α) : FailsOnly kind (.ok a) :=
  fun _ failed => by cases failed

/-- A fault of the right kind is an allowed way to fail. -/
theorem failsOnly_error {fault : ε} (isKind : kind fault) :
    FailsOnly kind (.error fault : Except ε α) := by
  rintro _ ⟨⟩
  exact isKind

/-- Joined computations fail with faults of a kind if the first does, and the second too on whatever
the first has given. -/
theorem FailsOnly.bind {first : Except ε α} {next : α → Except ε β}
    (here : FailsOnly kind first) (there : ∀ a, first = .ok a → FailsOnly kind (next a)) :
    FailsOnly kind (first >>= next) := by
  cases first with
  | error fault => exact failsOnly_error (here fault rfl)
  | ok a => exact there a rfl

/-- A list of steps that each fail only as allowed fails only as allowed. -/
theorem failsOnly_mapM {items : List α} {step : α → Except ε β}
    (each : ∀ item ∈ items, FailsOnly kind (step item)) : FailsOnly kind (items.mapM step) := by
  -- By induction on the items: the first one fails, or one of the others, or none.
  induction items with
  | nil => exact failsOnly_ok []
  | cons item items ih =>
    obtain ⟨here, there⟩ := List.forall_mem_cons.mp each
    rw [List.mapM_cons]
    exact here.bind fun _ _ => (ih there).bind fun _ _ => failsOnly_ok _

/-- A list of checks that each fail only as allowed fails only as allowed. -/
theorem failsOnly_forM {items : List α} {step : α → Except ε Unit}
    (each : ∀ item ∈ items, FailsOnly kind (step item)) : FailsOnly kind (items.forM step) := by
  induction items with
  | nil => exact failsOnly_ok ()
  | cons item items ih =>
    obtain ⟨here, there⟩ := List.forall_mem_cons.mp each
    rw [List.forM_eq_forM, List.forM_cons]
    -- If the first check passes the others are left, and they are covered by the induction.
    exact here.bind fun _ _ => ih there

end Outcome

namespace Narrated

variable {α β : Type}

/-- A value alone is its own outcome. -/
@[simp] theorem outcome_pure (a : α) : (pure a : Narrated α).outcome = .ok a := rfl

/-- A finished work ends with its value. -/
@[simp] theorem outcome_done (a : α) : (done a).outcome = .ok a := rfl

/-- To tell of events always succeeds here; whether their texts can be written is asked later. -/
@[simp] theorem outcome_tell (events : List Event) : (tell events).outcome = .ok () := rfl

/-- A work that fails ends with its fault. -/
@[simp] theorem outcome_fail (fault : Fault) :
    (fail fault : Narrated α).outcome = .error fault := rfl

/-- An outcome stays what it is when it is made a work. -/
@[simp] theorem outcome_lift (outcome : Except Fault α) :
    (liftM outcome : Narrated α).outcome = outcome := rfl

/-- The same for a lift that the elaborator put in. -/
@[simp] theorem outcome_monadLift (outcome : Except Fault α) :
    (monadLift outcome : Narrated α).outcome = outcome := rfl

/-- The outcome of joined computations is that of their outcomes joined. -/
@[simp] theorem outcome_bind (first : Narrated α) (next : α → Narrated β) :
    (first >>= next).outcome = first.outcome >>= fun a => (next a).outcome := by
  show (first.andThen next).outcome = _
  unfold andThen
  cases first.outcome <;> rfl

/-- Mapping over a work maps over its outcome. -/
@[simp] theorem outcome_map (f : α → β) (first : Narrated α) :
    (f <$> first).outcome = first.outcome.map f := by
  show (first.andThen fun a => done (f a)).outcome = _
  unfold andThen
  cases first.outcome <;> rfl

/-- Steps come to what their outcomes come to. -/
@[simp] theorem outcome_foldlM (step : β → α → Narrated β) (items : List α) (first : β) :
    (items.foldlM step first).outcome =
      items.foldlM (fun state item => (step state item).outcome) first := by
  -- By induction on the items, from whatever state the first of them meets.
  induction items generalizing first with
  | nil => rfl
  | cons item items ih => simp only [List.foldlM_cons, outcome_bind, ih]

/-- An outcome by itself tells nothing. -/
@[simp] theorem events_lift (outcome : Except Fault α) :
    (liftM outcome : Narrated α).events = [] := rfl

/-- After a computation that succeeds, what is made of its result is told behind it. -/
theorem bind_of_ok {first : Narrated α} {a : α} (succeeded : first.outcome = .ok a)
    (next : α → Narrated β) :
    first >>= next = ⟨first.events ++ (next a).events, (next a).outcome⟩ := by
  show first.andThen next = _
  rw [andThen, succeeded]

/-- Steps that tell one thing each, whatever state they meet, tell one thing for each item if all of
them succeed. -/
theorem events_foldlM {step : β → α → Narrated β} {items : List α} {first last : β}
    (event : α → Event)
    (each : ∀ item ∈ items, ∀ before after, (step before item).outcome = .ok after →
      (step before item).events = [event item])
    (all : (items.foldlM step first).outcome = .ok last) :
    (items.foldlM step first).events = items.map event := by
  -- By induction on the items, from whatever state the first of them meets.
  induction items generalizing first with
  | nil => rfl
  | cons item items ih =>
    obtain ⟨here, there⟩ := List.forall_mem_cons.mp each
    rw [List.foldlM_cons, outcome_bind] at all
    obtain ⟨next, first_, rest⟩ := bind_eq_ok_iff.mp all
    rw [List.foldlM_cons, bind_of_ok first_, here _ _ first_, ih there rest, List.map_cons]
    rfl

/-- What has succeeded without an event leads on to what comes next. -/
theorem lift_ok_bind (a : α) (next : α → Narrated β) :
    ((liftM (Except.ok a : Except Fault α) : Narrated α) >>= next) = next a := rfl

/-- Nothing comes of a fault but the fault. -/
theorem lift_error_bind (fault : Fault) (next : α → Narrated β) :
    ((liftM (Except.error fault : Except Fault α) : Narrated α) >>= next) = fail fault := rfl

end Narrated

end CycleSchedule
