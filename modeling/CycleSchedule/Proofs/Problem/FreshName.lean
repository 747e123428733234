import CycleSchedule.Problem.Basic
import Mathlib.Data.List.Nodup
import Mathlib.Data.List.Perm.Subperm
import Mathlib.Order.Bounds.Basic

/-! Operations that are registered without a name get the first numbered name that is free, and keep
it whatever is registered after them. -/

namespace CycleSchedule.Problem

variable {ν : Type} {problem : Problem ν} {taken : List String} {first tries found : Nat}

/-- Different numbers make different names. -/
theorem numberedName_injective : Function.Injective numberedName := by
  intro number other same
  have numerals : toString number = toString other := (String.append_right_inj "op").mp same
  have digits : Nat.toDigits 10 number = Nat.toDigits 10 other := by
    simpa using congrArg String.toList numerals
  -- A number can be read back from its digits.
  let read (digits : List Char) : Nat := Nat.ofDigitChars 10 digits 0
  have reads : Function.LeftInverse read (Nat.toDigits 10) := fun number =>
    Nat.ofDigitChars_toDigits (by decide) (by decide)
  exact reads.injective digits

/-- One more numbered name than there are names taken cannot all be taken. -/
theorem exists_numberedName_not_mem (taken : List String) (first : Nat) :
    ∃ step ≤ taken.length, numberedName (first + step) ∉ taken := by
  -- Otherwise more names would be taken than there are.
  by_contra none_
  push Not at none_
  let candidates := (List.range (taken.length + 1)).map fun step => numberedName (first + step)
  have distinct : candidates.Nodup := List.nodup_range.map fun step other same =>
    Nat.add_left_cancel (numberedName_injective same)
  have inside : candidates ⊆ taken := by
    intro name member
    obtain ⟨step, inRange, rfl⟩ := List.mem_map.mp member
    exact none_ step (Nat.le_of_lt_succ (List.mem_range.mp inRange))
  have few := (List.subperm_of_subset distinct inside).length_le
  rw [List.length_map, List.length_range] at few
  exact absurd few (Nat.not_succ_le_self _)

/-- A search that tries numbered names from a number on and stops at the first that is not taken,
told with how many names it tries and the number it comes to. -/
inductive Seeks (taken : List String) : Nat → Nat → Nat → Prop
  | stop {number : Nat} (free : numberedName number ∉ taken) : Seeks taken number 1 number
  | next {number tries found : Nat} (used : numberedName number ∈ taken)
      (rest : Seeks taken (number + 1) tries found) : Seeks taken number (tries + 1) found

/-- The search stops at the first free name, having tried all names up to it. -/
theorem Seeks.isLeast (seeks : Seeks taken first tries found) :
    IsLeast {number | first ≤ number ∧ numberedName number ∉ taken} found ∧
      found + 1 = first + tries := by
  -- The induction is on the search: a name that is passed over is not free.
  induction seeks with
  | stop free => exact ⟨⟨⟨le_rfl, free⟩, fun number inside => inside.1⟩, rfl⟩
  | @next number tries found used _ ih =>
    obtain ⟨⟨⟨later, free⟩, least⟩, count⟩ := ih
    refine ⟨⟨⟨by omega, free⟩, fun other inside => least ⟨?_, inside.2⟩⟩, by omega⟩
    have passed : number ≠ other := by
      rintro rfl
      exact inside.2 used
    have from_ := inside.1
    omega

/-- A search that has a free name ahead comes to an end. -/
theorem exists_seeks_of_free {step : Nat} (free : numberedName (first + step) ∉ taken) :
    ∃ tries found, Seeks taken first tries found := by
  -- The induction is on the way to the free name.
  induction step generalizing first with
  | zero => exact ⟨1, first, .stop free⟩
  | succ step ih =>
    by_cases used : numberedName first ∈ taken
    · -- A name that is taken is passed over, and the free one is a step nearer.
      obtain ⟨tries, found, rest⟩ := @ih (first + 1) (by rwa [Nat.add_assoc, Nat.add_comm 1])
      exact ⟨tries + 1, found, .next used rest⟩
    · exact ⟨1, first, .stop used⟩

/-- The search always comes to an end. -/
theorem exists_seeks (taken : List String) (first : Nat) :
    ∃ tries found, Seeks taken first tries found := by
  -- Some name is free, however many are taken.
  obtain ⟨step, _, free⟩ := exists_numberedName_not_mem taken first
  exact exists_seeks_of_free free

/-- The search tries no more than one name more than there are names taken. -/
theorem Seeks.tries_le (seeks : Seeks taken first tries found) : tries ≤ taken.length + 1 := by
  obtain ⟨step, few, free⟩ := exists_numberedName_not_mem taken first
  obtain ⟨isLeast, count⟩ := seeks.isLeast
  -- The search does not go beyond the free name that there is among so many.
  have before : found ≤ first + step := isLeast.2 ⟨Nat.le_add_right _ _, free⟩
  omega

/-- Among the names of operations, it tries one more than there are operations at most. -/
theorem Seeks.tries_le_length (seeks : Seeks problem.operationNames first tries found) :
    tries ≤ problem.operations.length + 1 := by
  have few := seeks.tries_le
  rwa [Problem.operationNames, List.length_map] at few

/-- The fresh name is the one that the search from the number of operations on comes to. -/
theorem Seeks.freshName_eq
    (seeks : Seeks problem.operationNames problem.operations.length tries found) :
    problem.freshName = numberedName found := by
  obtain ⟨⟨⟨later, free⟩, least⟩, count⟩ := seeks.isLeast
  have few := seeks.tries_le_length
  obtain ⟨step, rfl⟩ := Nat.exists_eq_add_of_le later
  -- Among the candidates it is the first one that is not the name of an operation.
  have isFirst : (List.range (problem.operations.length + 1)).find? ((fun name =>
      !problem.operationNames.contains name) ∘ fun step =>
        numberedName (problem.operations.length + step)) = some step := by
    refine List.find?_range_eq_some.mpr ⟨by simpa using free, List.mem_range.mpr (by omega),
      fun earlier before => ?_⟩
    -- Every name in front of the found one is taken, since the found number is the least free one.
    have used : numberedName (problem.operations.length + earlier) ∈ problem.operationNames := by
      by_contra unused
      have bound := least ⟨Nat.le_add_right _ _, unused⟩
      omega
    simpa using used
  simp only [freshName, List.find?_map, isFirst, Option.map_some, Option.getD_some]

/-- The problem with one more operation of a type, under the name that is given for it if any is. -/
def register (problem : Problem ν) (call : String × Option String) : Problem ν :=
  problem.addOperation (problem.newOperation call.1 call.2)

/-- The problem with more operations, registered one after the other. -/
def registerAll (problem : Problem ν) (calls : List (String × Option String)) : Problem ν :=
  calls.foldl register problem

/-- A registration leaves the operations that there are as they are. -/
theorem operations_register (problem : Problem ν) (call : String × Option String) :
    (problem.register call).operations =
      problem.operations ++ [problem.newOperation call.1 call.2] := rfl

/-- So do any number of them. -/
theorem operations_isPrefix_registerAll (problem : Problem ν)
    (calls : List (String × Option String)) :
    problem.operations <+: (problem.registerAll calls).operations := by
  -- By induction on the registrations, from every problem to begin with.
  induction calls generalizing problem with
  | nil => exact List.prefix_refl _
  | cons call calls ih => exact (List.prefix_append _ _).trans (ih (problem.register call))

/-- The operation that is registered first comes right after those that there were. -/
theorem getElem?_operations_registerAll (problem : Problem ν) (call : String × Option String)
    (calls : List (String × Option String)) :
    (problem.registerAll (call :: calls)).operations[problem.operations.length]? =
      some (problem.newOperation call.1 call.2) := by
  -- Later registrations only add operations behind it.
  obtain ⟨more, same⟩ := operations_isPrefix_registerAll (problem.register call) calls
  have all : (problem.registerAll (call :: calls)).operations =
      problem.operations ++ problem.newOperation call.1 call.2 :: more := by
    rw [List.append_cons, ← operations_register]
    exact same.symm
  rw [all, List.getElem?_append_right le_rfl, Nat.sub_self, List.getElem?_cons_zero]

end CycleSchedule.Problem

namespace CycleSchedule

open Problem

/-- Whatever operations have been registered, under names that were given for them or not, the
search for a name for the next one comes to an end when it has tried one name more than there are
operations at the latest. It comes to the least number from the number of operations on whose name
no operation has. An operation that is registered without a name has this one, and keeps it through
all registrations after it. -/
theorem generated_name_is_least {ν : Type} (start : Problem ν)
    (before after : List (String × Option String)) (operatorType : String) :
    let problem := start.registerAll before
    let count := problem.operations.length
    ∃ number tries, Seeks problem.operationNames count tries number ∧ tries ≤ count + 1 ∧
      problem.freshName = numberedName number ∧
      IsLeast {number | count ≤ number ∧ numberedName number ∉ problem.operationNames} number ∧
      (start.registerAll (before ++ (operatorType, none) :: after)).operations[count]? =
        some ⟨numberedName number, operatorType, none⟩ := by
  intro problem count
  obtain ⟨tries, number, seeks⟩ := exists_seeks problem.operationNames count
  have fresh := seeks.freshName_eq
  refine ⟨number, tries, seeks, seeks.tries_le_length, fresh, seeks.isLeast.1, ?_⟩
  -- The rest of the registrations start from the problem that those before have come to.
  have later : start.registerAll (before ++ (operatorType, none) :: after) =
      problem.registerAll ((operatorType, none) :: after) := List.foldl_append
  rw [later, getElem?_operations_registerAll, newOperation, Option.getD_none, fresh]

/-- Names that were given twice, or that look like made up ones, are passed over all the same. -/
example : ((Problem.empty "problem" : Problem Int).registerAll [("add", some "op1"), ("add", none),
    ("add", some "op4"), ("add", some "op4"), ("add", none)]).operationNames =
      ["op1", "op2", "op4", "op4", "op5"] := by decide

end CycleSchedule
