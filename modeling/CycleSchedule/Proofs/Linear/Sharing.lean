import CycleSchedule.Proofs.Linear.Build
import CycleSchedule.Proofs.Linear.Strict.Solver

/-! Programs as objects that are changed in place, with copies that share their constraints: no call
on one of them is seen by another. -/

namespace CycleSchedule

/-- Where the parts of a program are kept. -/
structure Handle where
  unknowns : Nat
  constraints : Nat
  objective : Nat
deriving DecidableEq, Repr

/-- The objects that programs are made of, each found by its address. A list of constraints holds
addresses in turn, so that several lists may refer to one constraint. -/
structure Store where
  constraints : List Constraint
  unknownLists : List (List String)
  constraintLists : List (List Nat)
  objectives : List LinearForm
  programs : List Handle
deriving DecidableEq, Repr

/-- Why a call has no result: it is refused for what it asks, or slips on the way. -/
inductive Trouble where
  | refused (fault : Fault)
  | slipped (slip : Slip)

/-- What is done to a store; trouble leaves the store as it was when it came up. -/
abbrev Work (α : Type) := EStateM Trouble Store α

namespace Store

/-- The store with one program, which is empty. -/
def single : Store := ⟨[], [[]], [[]], [[]], [⟨0, 0, 0⟩]⟩

/-- The object at an address. -/
def look {α : Type} (part : Store → List α) (address : Nat) : Work α := fun store =>
  -- An address without an object is a slip and not a refusal.
  match (part store)[address]? with
  | some object => .ok object store
  | none => .error (.slipped (.missingPlace address)) store

/-- Keeps a new object behind all others of its sort; the result is its address. -/
def keep {α : Type} (part : Store → List α) (renew : List α → Store → Store) (object : α) :
    Work Nat := fun store =>
  -- Objects are never taken away, so an address stays good.
  .ok (part store).length (renew (part store ++ [object]) store)

/-- A form may only name variables out of a list. -/
def requireKnown (unknowns : List String) (form : LinearForm) (rejection : String → Rejection) :
    Work Unit :=
  match (form.map (·.1)).find? fun name => !unknowns.contains name with
  -- The first unknown name is the one that is refused.
  | some name => throw (.refused (.rejected (rejection name)))
  | none => return ()

/-- Adds a variable to a program, in place. -/
def addVariable (program : Nat) (name : String) : Work Unit := do
  let handle ← look (·.programs) program
  let unknowns ← look (·.unknownLists) handle.unknowns
  if unknowns.contains name then throw (.refused (.rejected (.repeatedVariable name)))
  -- The list is replaced by a longer one at the same address.
  else modify fun store =>
    { store with unknownLists := store.unknownLists.set handle.unknowns (unknowns ++ [name]) }

/-- Adds a new constraint to a program, in place. -/
def addConstraint (program : Nat) (form : LinearForm) (relation : Relation) (bound : Rat)
    (label : String) : Work Unit := do
  let handle ← look (·.programs) program
  let unknowns ← look (·.unknownLists) handle.unknowns
  requireKnown unknowns form (.unknownVariable label)
  -- The constraint is a new object, and only its address goes into the list.
  let address ← keep (·.constraints) (fun kept store => { store with constraints := kept })
    ⟨form.nonzero, relation, bound, label⟩
  let listed ← look (·.constraintLists) handle.constraints
  modify fun store => { store with
    constraintLists := store.constraintLists.set handle.constraints (listed ++ [address]) }

/-- Gives a program a new objective. -/
def minimize (program : Nat) (objective : LinearForm) : Work Unit := do
  let handle ← look (·.programs) program
  let unknowns ← look (·.unknownLists) handle.unknowns
  requireKnown unknowns objective .unknownObjectiveVariable
  -- The objective is a new object too, which no other program refers to.
  let address ← keep (·.objectives) (fun kept store => { store with objectives := kept })
    objective.nonzero
  modify fun store => { store with
    programs := store.programs.set program { handle with objective := address } }

/-- An edit of a program, in place. -/
def edit (program : Nat) : Edit → Work Unit
  | .addVariable name => addVariable program name
  | .addConstraint form relation bound label => addConstraint program form relation bound label
  | .addDifference later earlier bound label =>
    -- A difference and a fixed form are constraints like any other.
    addConstraint program (LinearProgram.difference later earlier) .atLeast bound label
  | .fix form value label => addConstraint program form .equal value label
  | .minimize objective => minimize program objective

/-- A new program with new lists of its own, which refer to the same constraints. -/
def copy (program : Nat) : Work Unit := do
  let handle ← look (·.programs) program
  let unknowns ← look (·.unknownLists) handle.unknowns
  -- The lists are copied, but not the constraints that they refer to.
  let ownUnknowns ← keep (·.unknownLists)
    (fun kept store => { store with unknownLists := kept }) unknowns
  let listed ← look (·.constraintLists) handle.constraints
  let ownListed ← keep (·.constraintLists)
    (fun kept store => { store with constraintLists := kept }) listed
  let objective ← look (·.objectives) handle.objective
  let ownObjective ← keep (·.objectives)
    (fun kept store => { store with objectives := kept }) objective
  modify fun store => { store with
    programs := store.programs ++ [⟨ownUnknowns, ownListed, ownObjective⟩] }

/-- Solves a program, with rows and costs of its own. -/
def solve (program : Nat) : Work Solution := do
  let handle ← look (·.programs) program
  let unknowns ← look (·.unknownLists) handle.unknowns
  let listed ← look (·.constraintLists) handle.constraints
  let constraints ← listed.mapM (look (·.constraints))
  let objective ← look (·.objectives) handle.objective
  -- The solver has rows and costs of its own, so the store stays as it is.
  match Strict.solve ⟨unknowns, constraints, objective⟩ with
  | .ok solution => return solution
  | .error slip => throw (.slipped slip)

end Store

/-- What can be asked of the programs there are, each named by its number. -/
inductive Call where
  | edit (program : Nat) (edit : Edit)
  | copy (program : Nat)
  | solve (program : Nat)
deriving DecidableEq, Repr

/-- The number of the program that a call is about. -/
def Call.number : Call → Nat
  | .edit program _ => program
  | .copy program => program
  | .solve program => program

namespace Store

/-- A call; only solving has a result. -/
def perform : Call → Work (Option Solution)
  | .edit program asked => do
    edit program asked
    return none
  | .copy program => do
    copy program
    return none
  | .solve program => do
    let solution ← solve program
    return some solution

/-- The store after a call, whether it succeeded or not. -/
def next (store : Store) (call : Call) : Store :=
  -- A call that failed may have left objects behind that no program refers to.
  match perform call store with
  | .ok _ after => after
  | .error _ after => after

/-- The store that calls lead to from one empty program. -/
def ofCalls (calls : List Call) : Store := calls.foldl next single

/-- The program that a handle stands for, if all its parts are there. -/
def read? (store : Store) (handle : Handle) : Option LinearProgram := do
  let unknowns ← store.unknownLists[handle.unknowns]?
  -- Both look-ups fail on an address without an object.
  let listed ← store.constraintLists[handle.constraints]?
  let constraints ← listed.mapM (store.constraints[·]?)
  let objective ← store.objectives[handle.objective]?
  return ⟨unknowns, constraints, objective⟩

/-- The program of a number. -/
def program? (store : Store) (number : Nat) : Option LinearProgram := do
  let handle ← store.programs[number]?
  store.read? handle

/-- A store in which every address leads to an object, and no list that is changed in place belongs
to two programs. -/
structure Sound (store : Store) : Prop where
  unknownsWithin : ∀ handle ∈ store.programs, handle.unknowns < store.unknownLists.length
  constraintsWithin : ∀ handle ∈ store.programs, handle.constraints < store.constraintLists.length
  objectiveWithin : ∀ handle ∈ store.programs, handle.objective < store.objectives.length
  listedWithin : ∀ listed ∈ store.constraintLists, ∀ address ∈ listed,
    address < store.constraints.length
  unknownsApart : (store.programs.map (·.unknowns)).Nodup
  constraintsApart : (store.programs.map (·.constraints)).Nodup

/-- One program is new or changed, and all others are as before. -/
structure Changes (store after : Store) (number : Nat) (program : LinearProgram) : Prop where
  changed : after.program? number = some program
  others : ∀ other ≠ number, after.program? other = store.program? other

variable {store after : Store} {number : Nat} {handle : Handle} {program : LinearProgram}
  {α β : Type}

/-- Looking at an address that holds an object returns it and changes nothing. -/
theorem look_ok {part : Store → List α} {address : Nat} {object : α}
    (found : (part store)[address]? = some object) :
    look part address store = .ok object store := by
  rw [look, found]

/-- Looking at an address that holds nothing slips and changes nothing. -/
theorem look_error {part : Store → List α} {address : Nat}
    (missing : (part store)[address]? = none) :
    look part address store = .error (.slipped (.missingPlace address)) store := by
  rw [look, missing]

/-- A chain goes on in the store that its first step left. -/
theorem bind_of_ok {first : Work α} {a : α} (done : first store = .ok a after)
    (then_ : α → Work β) : (first >>= then_) store = then_ a after := by
  show EStateM.bind first then_ store = _
  rw [EStateM.bind, done]

/-- A chain ends with the trouble of its first step, in the store that step left. -/
theorem bind_of_error {first : Work α} {trouble : Trouble}
    (failed : first store = .error trouble after) (then_ : α → Work β) :
    (first >>= then_) store = .error trouble after := by
  show EStateM.bind first then_ store = _
  rw [EStateM.bind, failed]

/-- A new object is kept behind all others, at the address that is returned. -/
theorem keep_ok (part : Store → List α) (renew : List α → Store → Store) (object : α) :
    keep part renew object store =
      .ok (part store).length (renew (part store ++ [object]) store) := rfl

/-- The parts of a program that is there. -/
theorem program?_eq_some_iff : store.program? number = some program ↔
    ∃ handle listed, store.programs[number]? = some handle ∧
      store.unknownLists[handle.unknowns]? = some program.unknowns ∧
      store.constraintLists[handle.constraints]? = some listed ∧
      listed.mapM (store.constraints[·]?) = some program.constraints ∧
      store.objectives[handle.objective]? = some program.objective := by
  cases program
  simp only [program?, read?, Option.bind_eq_bind, Option.bind_eq_some_iff, Option.pure_def,
    Option.some.injEq, LinearProgram.mk.injEq]
  -- The parts are the same on both sides; only their order in the statement differs.
  constructor
  · rintro ⟨handle, isHandle, unknowns, isUnknowns, listed, isListed, constraints, isConstraints,
      objective, isObjective, rfl, rfl, rfl⟩
    exact ⟨handle, listed, isHandle, isUnknowns, isListed, isConstraints, isObjective⟩
  · rintro ⟨handle, listed, isHandle, isUnknowns, isListed, isConstraints, isObjective⟩
    exact ⟨handle, isHandle, _, isUnknowns, listed, isListed, _, isConstraints, _, isObjective, rfl,
      rfl, rfl⟩

/-- Steps that agree on the items of a list agree on the list. -/
theorem mapM_congr {f g : α → Option β} {items : List α} (same : ∀ item ∈ items, f item = g item) :
    items.mapM f = items.mapM g := by
  induction items with
  | nil => rfl
  | cons item items ih =>
    obtain ⟨here, there⟩ := List.forall_mem_cons.mp same
    -- Each item gives the same, the first one and then the rest.
    rw [List.mapM_cons, List.mapM_cons, here, ih there]

/-- A handle stands for the same program in two stores if its parts are the same there. -/
theorem read?_congr (sound : store.Sound)
    (unknowns : after.unknownLists[handle.unknowns]? = store.unknownLists[handle.unknowns]?)
    (listed : after.constraintLists[handle.constraints]? =
      store.constraintLists[handle.constraints]?)
    (constraints : ∀ address < store.constraints.length,
      after.constraints[address]? = store.constraints[address]?)
    (objective : after.objectives[handle.objective]? = store.objectives[handle.objective]?) :
    after.read? handle = store.read? handle := by
  -- The lists are where they were, and so are the constraints that they refer to.
  rw [read?, unknowns, listed, objective, read?]
  cases found : store.constraintLists[handle.constraints]? with
  | none => rfl
  | some addresses =>
    have same : addresses.mapM (after.constraints[·]?) = addresses.mapM (store.constraints[·]?) :=
      mapM_congr fun address member => constraints address
        (sound.listedWithin addresses (List.mem_of_getElem? found) address member)
    simp only [Option.bind_eq_bind, Option.bind_some, same]

/-- Looking at a list of addresses that are all filled returns their objects and changes nothing. -/
theorem mapM_look_ok {constraints : List Constraint} {listed : List Nat}
    (found : listed.mapM (store.constraints[·]?) = some constraints) :
    (listed.mapM (look (·.constraints)) : Work _) store = .ok constraints store := by
  induction listed generalizing constraints with
  | nil =>
    obtain rfl : [] = constraints := by simpa using found
    rfl
  -- The first address is filled, and so are the others by induction.
  | cons address listed ih =>
    rw [List.mapM_cons] at found
    simp only [Option.bind_eq_bind, Option.bind_eq_some_iff, Option.pure_def,
      Option.some.injEq] at found
    obtain ⟨constraint, here, rest, there, rfl⟩ := found
    rw [List.mapM_cons, bind_of_ok (look_ok here), bind_of_ok (ih there)]
    rfl

/-- Work that does to a program what an outcome says: it leaves the resulting program and all others
as they were, or is refused and leaves everything as it was. -/
inductive Carries (store : Store) (number : Nat) (work : Work Unit) :
    Except Fault LinearProgram → Prop
  | ok (after : Store) {result : LinearProgram} (done : work store = .ok () after)
      (sound : after.Sound) (count : after.programs.length = store.programs.length)
      (changes : Changes store after number result) : Carries store number work (.ok result)
  | error {fault : Fault} (refused : work store = .error (.refused fault) store) :
      Carries store number work (.error fault)

/-- Another program has its lists at other addresses. -/
theorem Sound.apart (sound : store.Sound) {other : Nat} {another : Handle}
    (isHandle : store.programs[number]? = some handle)
    (isAnother : store.programs[other]? = some another) (different : other ≠ number) :
    another.unknowns ≠ handle.unknowns ∧ another.constraints ≠ handle.constraints := by
  have within : other < (store.programs.map (·.unknowns)).length := by
    simpa using (List.getElem?_eq_some_iff.mp isAnother).1
  -- Two programs with one list would be one program, since no list belongs to two.
  refine ⟨fun same => different ?_, fun same => different ?_⟩
  · exact (List.getElem?_inj within sound.unknownsApart).mp (by simp [isHandle, isAnother, same])
  · exact (List.getElem?_inj (by simpa using within) sound.constraintsApart).mp
      (by simp [isHandle, isAnother, same])

/-- Where programs keep their handles, they are as before if what the handles stand for is. -/
theorem program?_congr {other : Nat} (same : after.programs[other]? = store.programs[other]?)
    (reads : ∀ handle, store.programs[other]? = some handle →
      after.read? handle = store.read? handle) :
    after.program? other = store.program? other := by
  rw [program?, program?, same]
  -- A program without a handle is none on either side.
  cases found : store.programs[other]? with
  | none => rfl
  | some handle => exact reads handle found

/-- Adding a variable to a stored program does to it what it does to the program alone. -/
theorem carries_addVariable (sound : store.Sound) (found : store.program? number = some program)
    (name : String) :
    Carries store number (addVariable number name) (program.addVariable name) := by
  obtain ⟨handle, listed, isHandle, isUnknowns, isListed, isConstraints, isObjective⟩ :=
    program?_eq_some_iff.mp found
  unfold addVariable LinearProgram.addVariable
  by_cases known : program.unknowns.contains name = true
  -- A name that is taken is refused before anything is changed.
  · rw [if_pos known]
    refine .error ?_
    rw [bind_of_ok (look_ok isHandle), bind_of_ok (look_ok isUnknowns), if_pos known]
    rfl
  · rw [if_neg known]
    -- The store with the longer list is what the call leaves.
    have within := (List.getElem?_eq_some_iff.mp isUnknowns).1
    refine .ok { store with
      unknownLists := store.unknownLists.set handle.unknowns (program.unknowns ++ [name]) }
      ?_ { sound with unknownsWithin := ?_ } rfl ⟨?_, fun other different => ?_⟩
    · rw [bind_of_ok (look_ok isHandle), bind_of_ok (look_ok isUnknowns), if_neg known]
      rfl
    · simpa using sound.unknownsWithin
    · exact program?_eq_some_iff.mpr ⟨handle, listed, isHandle, by simp [within], isListed,
        isConstraints, isObjective⟩
    · -- The other programs have other lists of variables.
      refine program?_congr rfl fun another isAnother =>
        read?_congr sound ?_ rfl (fun _ _ => rfl) rfl
      exact List.getElem?_set_ne (sound.apart isHandle isAnother different).1.symm

/-- A form without unknown variables passes. -/
theorem requireKnown_ok {form : LinearForm} (known : program.unknownVariable? form = none)
    (rejection : String → Rejection) :
    requireKnown program.unknowns form rejection store = .ok () store := by
  rw [LinearProgram.unknownVariable?] at known
  rw [requireKnown, known]
  rfl

/-- The first unknown variable of a form is reported. -/
theorem requireKnown_error {form : LinearForm} {name : String}
    (unknown : program.unknownVariable? form = some name) (rejection : String → Rejection) :
    requireKnown program.unknowns form rejection store =
      .error (.refused (.rejected (rejection name))) store := by
  rw [LinearProgram.unknownVariable?] at unknown
  rw [requireKnown, unknown]
  rfl

/-- One more constraint in a list of addresses is read behind the others. -/
theorem mapM_append_new {listed : List Nat} {constraints : List Constraint}
    (found : listed.mapM (store.constraints[·]?) = some constraints)
    (inside : ∀ address ∈ listed, address < store.constraints.length) (constraint : Constraint) :
    (listed ++ [store.constraints.length]).mapM ((store.constraints ++ [constraint])[·]?) =
      some (constraints ++ [constraint]) := by
  -- The old addresses find what they found, and the new one finds the new constraint.
  have old : listed.mapM ((store.constraints ++ [constraint])[·]?) = some constraints :=
    (mapM_congr fun address member => List.getElem?_append_left (inside address member)).trans found
  simp [List.mapM_append, old]

/-- Adding a constraint to a stored program does to it what it does to the program alone. -/
theorem carries_addConstraint (sound : store.Sound) (found : store.program? number = some program)
    (form : LinearForm) (relation : Relation) (bound : Rat) (label : String) :
    Carries store number (addConstraint number form relation bound label)
      (program.addConstraint form relation bound label) := by
  obtain ⟨handle, listed, isHandle, isUnknowns, isListed, isConstraints, isObjective⟩ :=
    program?_eq_some_iff.mp found
  unfold addConstraint LinearProgram.addConstraint LinearProgram.requireVariables
  cases unknown : program.unknownVariable? form with
  -- A form with an unknown name is refused before the constraint is made.
  | some name =>
    refine .error ?_
    rw [bind_of_ok (look_ok isHandle), bind_of_ok (look_ok isUnknowns),
      bind_of_error (requireKnown_error unknown _)]
  | none =>
    -- The constraint is kept first and listed then, so the list may refer to it.
    have within := (List.getElem?_eq_some_iff.mp isListed).1
    have inside := sound.listedWithin listed (List.mem_of_getElem? isListed)
    refine .ok { store with
      constraints := store.constraints ++ [⟨form.nonzero, relation, bound, label⟩]
      constraintLists := store.constraintLists.set handle.constraints
        (listed ++ [store.constraints.length]) }
      ?_ { sound with constraintsWithin := ?_, listedWithin := ?_ } rfl
      ⟨?_, fun other different => ?_⟩
    · have isStillListed : look (·.constraintLists) handle.constraints { store with
          constraints := store.constraints ++ [⟨form.nonzero, relation, bound, label⟩] } =
            .ok listed _ := look_ok isListed
      rw [bind_of_ok (look_ok isHandle), bind_of_ok (look_ok isUnknowns),
        bind_of_ok (requireKnown_ok unknown _), bind_of_ok (keep_ok _ _ _),
        bind_of_ok isStillListed]
      rfl
    · simpa using sound.constraintsWithin
    · -- The list refers to the new constraint, and to old ones.
      intro addresses member address inList
      rw [List.length_append, List.length_singleton]
      rcases List.mem_or_eq_of_mem_set member with old | rfl
      · exact (sound.listedWithin addresses old address inList).trans (Nat.lt_succ_self _)
      · rcases List.mem_append.mp inList with old | new
        · exact (inside address old).trans (Nat.lt_succ_self _)
        · rw [List.mem_singleton.mp new]
          exact Nat.lt_succ_self _
    -- The program reads its old constraints and the new one behind them.
    · exact program?_eq_some_iff.mpr ⟨handle, listed ++ [store.constraints.length], isHandle,
        isUnknowns, by simp [within], mapM_append_new isConstraints inside _, isObjective⟩
    · -- The other programs have other lists of constraints, and no constraint has changed.
      refine program?_congr rfl fun another isAnother => read?_congr sound rfl ?_
        (fun address old => List.getElem?_append_left old) rfl
      exact List.getElem?_set_ne (sound.apart isHandle isAnother different).2.symm

/-- Putting an item in the place of one that looks the same from some side changes nothing there. -/
theorem map_set_of_same {items : List α} {place : Nat} {old new : α} {side : α → β}
    (found : items[place]? = some old) (same : side new = side old) :
    (items.set place new).map side = items.map side := by
  refine List.ext_getElem? fun other => ?_
  rw [List.map_set, same]
  by_cases here : place = other
  -- At the place itself the new item has the side that the old one had.
  · subst here
    have within := (List.getElem?_eq_some_iff.mp found).1
    rw [List.getElem?_set_self (by simpa using within), List.getElem?_map, found, Option.map_some]
  · rw [List.getElem?_set_ne here]

/-- Setting the objective of a stored program does to it what it does to the program alone. -/
theorem carries_minimize (sound : store.Sound) (found : store.program? number = some program)
    (objective : LinearForm) :
    Carries store number (minimize number objective) (program.minimize objective) := by
  obtain ⟨handle, listed, isHandle, isUnknowns, isListed, isConstraints, isObjective⟩ :=
    program?_eq_some_iff.mp found
  unfold minimize LinearProgram.minimize
  cases unknown : program.unknownVariable? objective with
  | some name =>
    -- An unknown variable is found before anything is written.
    refine .error ?_
    rw [bind_of_ok (look_ok isHandle), bind_of_ok (look_ok isUnknowns),
      bind_of_error (requireKnown_error unknown _)]
  | none =>
    have within := (List.getElem?_eq_some_iff.mp isHandle).1
    -- A new objective leaves the addresses of all lists as they are.
    have unknownsSame : (store.programs.set number
        { handle with objective := store.objectives.length }).map (·.unknowns) =
          store.programs.map (·.unknowns) := map_set_of_same isHandle rfl
    have constraintsSame : (store.programs.set number
        { handle with objective := store.objectives.length }).map (·.constraints) =
          store.programs.map (·.constraints) := map_set_of_same isHandle rfl
    have isMember := List.mem_of_getElem? isHandle
    refine .ok { store with
      objectives := store.objectives ++ [objective.nonzero]
      programs := store.programs.set number { handle with objective := store.objectives.length } }
      ?_ ⟨fun each member => ?_, fun each member => ?_, fun each member => ?_, sound.listedWithin,
        unknownsSame ▸ sound.unknownsApart, constraintsSame ▸ sound.constraintsApart⟩
      (List.length_set ..) ⟨?_, fun other different => ?_⟩
    · rw [bind_of_ok (look_ok isHandle), bind_of_ok (look_ok isUnknowns),
        bind_of_ok (requireKnown_ok unknown _), bind_of_ok (keep_ok _ _ _)]
      rfl
    · rcases List.mem_or_eq_of_mem_set member with old | rfl
      · exact sound.unknownsWithin each old
      · exact sound.unknownsWithin handle isMember
    · rcases List.mem_or_eq_of_mem_set member with old | rfl
      · exact sound.constraintsWithin each old
      · exact sound.constraintsWithin handle isMember
    · rw [List.length_append, List.length_singleton]
      rcases List.mem_or_eq_of_mem_set member with old | rfl
      · exact (sound.objectiveWithin each old).trans (Nat.lt_succ_self _)
      · exact Nat.lt_succ_self _
    · exact program?_eq_some_iff.mpr ⟨{ handle with objective := store.objectives.length }, listed,
        by simp [within], isUnknowns, isListed, isConstraints, by simp⟩
    · refine program?_congr (List.getElem?_set_ne different.symm) fun another isAnother =>
        read?_congr sound rfl rfl (fun _ _ => rfl) (List.getElem?_append_left ?_)
      exact sound.objectiveWithin another (List.mem_of_getElem? isAnother)

/-- Every edit does to a program in store what it does to the program by itself. -/
theorem carries_edit (sound : store.Sound) (found : store.program? number = some program)
    (asked : Edit) : Carries store number (edit number asked) (program.edit asked) := by
  cases asked with
  | addVariable name => exact carries_addVariable sound found name
  -- Differences and fixed values are constraints of a certain form.
  | addConstraint form relation bound label => exact carries_addConstraint sound found ..
  | addDifference later earlier bound label => exact carries_addConstraint sound found ..
  | fix form value label => exact carries_addConstraint sound found ..
  | minimize objective => exact carries_minimize sound found objective

section Owning

variable {handles : List Handle} {own : Handle} {part : Handle → Nat} {objects : List α}
  {object : α}

/-- With an object for a new handle, all handles have their objects. -/
theorem within_append (within : ∀ handle ∈ handles, part handle < objects.length)
    (new : part own = objects.length) :
    ∀ handle ∈ handles ++ [own], part handle < (objects ++ [object]).length := by
  intro handle member
  rw [List.length_append, List.length_singleton]
  -- Old handles stay within the objects, and the new one refers to the last of them.
  rcases List.mem_append.mp member with old | isOwn
  · exact (within handle old).trans (Nat.lt_succ_self _)
  · rw [List.mem_singleton.mp isOwn, new]
    exact Nat.lt_succ_self _

/-- A new handle to a new object leads where no other one does. -/
theorem apart_append (apart : (handles.map part).Nodup)
    (within : ∀ handle ∈ handles, part handle < objects.length)
    (new : part own = objects.length) : ((handles ++ [own]).map part).Nodup := by
  rw [List.map_append, List.map_singleton, List.nodup_append]
  -- The new address lies beyond all old ones, so it is none of these.
  refine ⟨apart, List.nodup_singleton _, fun address old other isNew => ?_⟩
  obtain ⟨handle, member, rfl⟩ := List.mem_map.mp old
  rw [List.mem_singleton.mp isNew, new]
  exact (within handle member).ne

end Owning

/-- A copy is a new program that is equal to the one it is made of. -/
theorem copy_ok (sound : store.Sound) (found : store.program? number = some program) :
    ∃ after, copy number store = .ok () after ∧ after.Sound ∧
      after.programs.length = store.programs.length + 1 ∧
      Changes store after store.programs.length program := by
  obtain ⟨handle, listed, isHandle, isUnknowns, isListed, isConstraints, isObjective⟩ :=
    program?_eq_some_iff.mp found
  -- The copy gets the next free address of each list.
  set own : Handle := ⟨store.unknownLists.length, store.constraintLists.length,
    store.objectives.length⟩ with isOwn
  refine ⟨{ store with
    unknownLists := store.unknownLists ++ [program.unknowns]
    constraintLists := store.constraintLists ++ [listed]
    objectives := store.objectives ++ [program.objective]
    programs := store.programs ++ [own] }, ?_,
      { unknownsWithin := within_append sound.unknownsWithin rfl
        constraintsWithin := within_append sound.constraintsWithin rfl
        objectiveWithin := within_append sound.objectiveWithin rfl
        listedWithin := fun addresses member => ?_
        unknownsApart := apart_append sound.unknownsApart sound.unknownsWithin rfl
        constraintsApart := apart_append sound.constraintsApart sound.constraintsWithin rfl },
      by simp, ?_, fun other different => ?_⟩
  -- Each list is still where it was when the copy comes to it.
  · have isStillListed : look (·.constraintLists) handle.constraints
        { store with unknownLists := store.unknownLists ++ [program.unknowns] } =
          .ok listed _ := look_ok isListed
    have isStillObjective : look (·.objectives) handle.objective
        { store with
          unknownLists := store.unknownLists ++ [program.unknowns]
          constraintLists := store.constraintLists ++ [listed] } =
            .ok program.objective _ := look_ok isObjective
    rw [copy, bind_of_ok (look_ok isHandle), bind_of_ok (look_ok isUnknowns),
      bind_of_ok (keep_ok _ _ _), bind_of_ok isStillListed,
      bind_of_ok (keep_ok _ _ _), bind_of_ok isStillObjective,
      bind_of_ok (keep_ok _ _ _)]
    rfl
  · -- The new list refers to the constraints of the old one.
    have old : addresses ∈ store.constraintLists := by
      rcases List.mem_append.mp member with old | new
      · exact old
      · exact List.mem_singleton.mp new ▸ List.mem_of_getElem? isListed
    exact sound.listedWithin addresses old
  · exact program?_eq_some_iff.mpr ⟨own, listed, by simp, by simp [isOwn], by simp [isOwn],
      isConstraints, by simp [isOwn]⟩
  · -- The programs that there were keep their handles, and these their objects.
    have same : (store.programs ++ [own])[other]? = store.programs[other]? := by
      rcases Nat.lt_or_gt_of_ne different with before | beyond
      · exact List.getElem?_append_left before
      · rw [List.getElem?_eq_none (by simp; omega), List.getElem?_eq_none (by omega)]
    refine program?_congr same fun another isAnother => ?_
    have member := List.mem_of_getElem? isAnother
    exact read?_congr sound (List.getElem?_append_left (sound.unknownsWithin another member))
      (List.getElem?_append_left (sound.constraintsWithin another member)) (fun _ _ => rfl)
      (List.getElem?_append_left (sound.objectiveWithin another member))

/-- A well-formed program is solved without a slip, and the store stays as it is. -/
theorem solve_ok (found : store.program? number = some program) (wellFormed : program.WellFormed) :
    solve number store = .ok program.solve store := by
  obtain ⟨handle, listed, isHandle, isUnknowns, isListed, isConstraints, isObjective⟩ :=
    program?_eq_some_iff.mp found
  -- All look-ups succeed, and the solver cannot slip on a well-formed program.
  rw [solve, bind_of_ok (look_ok isHandle), bind_of_ok (look_ok isUnknowns),
    bind_of_ok (look_ok isListed), bind_of_ok (mapM_look_ok isConstraints),
    bind_of_ok (look_ok isObjective), Strict.solve_ok wellFormed]
  rfl

/-- A sound store in which every number stands for a tidy program. -/
structure Good (store : Store) : Prop where
  sound : store.Sound
  tidy : ∀ number < store.programs.length, ∃ program, store.program? number = some program ∧
    program.Tidy

/-- A store with one empty program is good. -/
theorem good_single : single.Good where
  sound := by
    -- The only lists belong to the only program, and are empty.
    constructor <;> simp [single]
  tidy number within := by
    have first : number = 0 := by simpa [single] using within
    subst first
    exact ⟨.empty, rfl, LinearProgram.tidy_empty⟩

/-- Every program of a good store is tidy. -/
theorem Good.tidy_of_program? (good : store.Good) (found : store.program? number = some program) :
    program.Tidy := by
  obtain ⟨handle, _, isHandle, _⟩ := program?_eq_some_iff.mp found
  obtain ⟨other, isOther, tidy⟩ := good.tidy number (List.getElem?_eq_some_iff.mp isHandle).1
  exact Option.some.inj (isOther.symm.trans found) ▸ tidy

/-- A step that puts a tidy program in place leaves every program tidy. -/
theorem Changes.tidy (changes : Changes store after number program) (good : store.Good)
    (isTidy : program.Tidy) {other : Nat}
    (within : other = number ∨ other < store.programs.length) :
    ∃ program, after.program? other = some program ∧ program.Tidy := by
  -- The program that changed is tidy by assumption, any other one was before.
  by_cases same : other = number
  · exact ⟨program, same ▸ changes.changed, isTidy⟩
  · obtain ⟨another, isAnother, anotherTidy⟩ := good.tidy other (within.resolve_left same)
    exact ⟨another, (changes.others other same).trans isAnother, anotherTidy⟩

/-- Without a program of its number a call does nothing. -/
theorem perform_missing {call : Call} (missing : store.programs[call.number]? = none) :
    perform call store = .error (.slipped (.missingPlace call.number)) store := by
  -- Everything that is asked begins with looking the program up.
  have look_ : look (·.programs) call.number store = _ := look_error missing
  cases call with
  | edit number asked =>
    refine bind_of_error ?_ _
    cases asked <;> exact bind_of_error look_ _
  | copy number => exact bind_of_error (bind_of_error look_ _) _
  | solve number => exact bind_of_error (bind_of_error look_ _) _

/-- A call keeps a store good, whether it succeeds or not. -/
theorem Good.next (good : store.Good) (call : Call) : (store.next call).Good := by
  -- A call that names no program leaves everything as it is.
  cases isHandle : store.programs[call.number]? with
  | none =>
    rw [Store.next, perform_missing isHandle]
    exact good
  | some handle =>
    have within := (List.getElem?_eq_some_iff.mp isHandle).1
    -- Every program that is there is tidy, and is read off the store.
    obtain ⟨program, found, tidy⟩ := good.tidy call.number within
    cases call with
    | edit number asked =>
      -- An edit does to the stored program what it does to the program alone, refusals included.
      have carried := carries_edit good.sound found asked
      cases outcome : program.edit asked with
      | ok result =>
        rw [outcome] at carried
        cases carried with
        | ok after done sound count changes =>
          have performed : perform (.edit number asked) store = .ok none _ := bind_of_ok done _
          rw [Store.next, performed]
          exact ⟨sound, fun other inside =>
            changes.tidy good (tidy.edit outcome) (.inr (count ▸ inside))⟩
      | error fault =>
        rw [outcome] at carried
        cases carried with
        | error refused =>
          have performed : perform (.edit number asked) store = .error _ store :=
            bind_of_error refused _
          rw [Store.next, performed]
          exact good
    | copy number =>
      -- A copy is one more program, with the number that comes next.
      obtain ⟨after, done, sound, count, changes⟩ := copy_ok good.sound found
      have performed : perform (.copy number) store = .ok none after := bind_of_ok done _
      rw [Store.next, performed]
      refine ⟨sound, fun other inside => changes.tidy good tidy ?_⟩
      have below : other < store.programs.length + 1 := count ▸ inside
      omega
    | solve number =>
      -- Solving changes nothing.
      have performed : perform (.solve number) store = .ok (some program.solve) store :=
        bind_of_ok (solve_ok found tidy.toWellFormed) _
      rw [Store.next, performed]
      exact good

/-- Whatever the calls are, the store that they lead to is good. -/
theorem good_ofCalls (calls : List Call) : (ofCalls calls).Good := by
  -- The induction is on the calls from the last one on.
  induction calls using List.reverseRecOn with
  | nil => exact good_single
  | append_singleton calls call ih =>
    rw [ofCalls, List.foldl_append]
    exact ih.next call

/-- Whatever has been asked of the programs that come from an empty one, each of them is well formed
and has no term that is zero. What is asked next of one of them is refused and changes nothing, or
does to it what it does to a program by itself, and changes no other; solving never slips and
changes nothing. -/
theorem calls_keep_programs_apart (calls : List Call) :
    let store := ofCalls calls
    (∀ number < store.programs.length,
      ∃ program, store.program? number = some program ∧ program.Tidy) ∧
    ∀ number program, store.program? number = some program →
      (∀ asked, match program.edit asked with
        | .ok result => ∃ after, perform (.edit number asked) store = .ok none after ∧
            Changes store after number result
        | .error fault => (∃ rejection, fault = .rejected rejection) ∧
            perform (.edit number asked) store = .error (.refused fault) store) ∧
      (∃ after, perform (.copy number) store = .ok none after ∧
        Changes store after store.programs.length program) ∧
      perform (.solve number) store = .ok (some program.solve) store ∧
      program.solve.status ≠ .unfinished := by
  have good := good_ofCalls calls
  refine ⟨good.tidy, fun number program found => ?_⟩
  have tidy := good.tidy_of_program? found
  refine ⟨fun asked => ?_, ?_, bind_of_ok (solve_ok found tidy.toWellFormed) _, ?_⟩
  -- An edit that is accepted changes its program, one that is refused changes nothing.
  · have carried := carries_edit good.sound found asked
    cases outcome : program.edit asked with
    | ok result =>
      rw [outcome] at carried
      cases carried with
      | ok after done sound count changes => exact ⟨_, bind_of_ok done _, changes⟩
    | error fault =>
      rw [outcome] at carried
      cases carried with
      | error refused =>
        obtain ⟨rejection, isRejection, _⟩ := LinearProgram.exists_rejection outcome
        exact ⟨⟨rejection, isRejection⟩, bind_of_error refused _⟩
  · obtain ⟨after, done, -, -, changes⟩ := copy_ok good.sound found
    exact ⟨after, bind_of_ok done _, changes⟩
  · -- The status is one of the three that tell something about the program.
    intro unfinished
    cases tidy.toWellFormed.answers_solve with
    | optimal status _ => cases status.symm.trans unfinished
    | infeasible status _ => cases status.symm.trans unfinished
    | unbounded status _ => cases status.symm.trans unfinished

/-- A copy has lists of its own, which refer to the constraints that there are. -/
example :
    let store := ofCalls [.edit 0 (.addVariable "x"),
      .edit 0 (.addConstraint [("x", 1)] .atLeast 1 "late"), .copy 0]
    store.programs = [⟨0, 0, 0⟩, ⟨1, 1, 1⟩] ∧ store.constraintLists = [[0], [0]] := by
  decide +kernel

end Store

end CycleSchedule
