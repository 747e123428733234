import CycleSchedule.NameTable
import Mathlib.Data.List.Induction
import Mathlib.Data.List.Nodup
import Mathlib.Data.List.Perm.Basic

/-! Look-up in tables whose names are distinct, and what puts change of it. -/

namespace CycleSchedule.NameTable

variable {α β : Type} {table : NameTable α} {name other : String} {value : α}

/-- An empty table holds no name. -/
@[simp] theorem get?_nil : get? ([] : NameTable α) name = none := rfl

/-- The entry in front answers for its name and hides any later entry of that name. -/
theorem get?_cons (entry : String × α) (table : NameTable α) (name : String) :
    get? (entry :: table) name = if entry.1 = name then some entry.2 else get? table name := by
  -- The look-up compares the names the other way round.
  obtain ⟨first, value⟩ := entry
  rw [get?, List.lookup_cons]
  by_cases same : first = name
  · simp [same]
  · have different : (name == first) = false := by
      simpa using fun equal : name = first => same equal.symm
    rw [different, if_neg same]
    rfl

/-- Nothing is found under a name that is not one of the table. -/
theorem get?_eq_none_iff : table.get? name = none ↔ name ∉ table.names := by
  simp only [get?, names, List.lookup_eq_none_iff, List.mem_map, not_exists, not_and]
  refine forall₂_congr fun entry _ => ?_
  -- A look-up compares the names the other way round.
  simp only [bne_iff_ne, ne_eq]
  exact not_congr eq_comm

/-- Something is found under each name of the table. -/
theorem exists_get?_of_mem (member : name ∈ table.names) :
    ∃ value, table.get? name = some value := by
  cases found : table.get? name with
  | none => exact absurd member (get?_eq_none_iff.mp found)
  | some value => exact ⟨value, rfl⟩

/-- What is found is an entry of the table. -/
theorem mem_of_get? (found : table.get? name = some value) : (name, value) ∈ table := by
  -- The first entry of the name is what is found.
  induction table with
  | nil => simp at found
  | cons entry table ih =>
    rw [get?_cons] at found
    split at found
    · rename_i same
      obtain ⟨_, _⟩ := entry
      simp_all
    · exact List.mem_cons_of_mem _ (ih found)

/-- A name that is found is one of the names of the table. -/
theorem mem_names_of_get? (found : table.get? name = some value) : name ∈ table.names :=
  List.mem_map.mpr ⟨_, mem_of_get? found, rfl⟩

/-- Where names are distinct, every entry is found. -/
theorem get?_of_mem (distinct : table.names.Nodup) (member : (name, value) ∈ table) :
    table.get? name = some value := by
  -- Something is found under the name, and there is one entry of that name only.
  obtain ⟨found, isFound⟩ := exists_get?_of_mem (List.mem_map.mpr ⟨_, member, rfl⟩)
  have same : (name, found) = (name, value) :=
    List.inj_on_of_nodup_map distinct (mem_of_get? isFound) member rfl
  rw [isFound, (Prod.mk.inj same).2]

/-- A put changes what is found under its name only. -/
theorem get?_put (table : NameTable α) (name other : String) (value : α) :
    (table.put name value).get? other = if name = other then some value else table.get? other := by
  -- The induction is on the entries up to the one that the put replaces.
  induction table with
  | nil => rw [put, get?_cons]
  | cons entry table ih =>
    obtain ⟨first, old⟩ := entry
    rw [put]
    split
    · rename_i same
      subst same
      simp only [get?_cons]
      split <;> rfl
    · -- An entry of another name is passed by the put and by the look-up alike.
      rename_i different
      simp only [get?_cons, ih]
      split
      · rename_i here
        rw [if_neg fun equal => different (here.trans equal.symm)]
      · rfl

/-- What was put under a name is found under it. -/
@[simp] theorem get?_put_self : (table.put name value).get? name = some value := by
  rw [get?_put, if_pos rfl]

/-- Putting a value under a name changes what no other name holds. -/
theorem get?_put_of_ne (different : name ≠ other) :
    (table.put name value).get? other = table.get? other := by
  rw [get?_put, if_neg different]

/-- A name that is put for the first time comes last. -/
theorem put_of_not_mem (new : name ∉ table.names) :
    table.put name value = table ++ [(name, value)] := by
  -- The put goes past every entry, since none has its name.
  induction table with
  | nil => rfl
  | cons entry table ih =>
    obtain ⟨first, old⟩ := entry
    simp only [names, List.map_cons, List.mem_cons, not_or] at new
    rw [put, if_neg fun same => new.1 same.symm, ih new.2]
    rfl

/-- A name that is put again keeps its place. -/
theorem names_put_of_mem (member : name ∈ table.names) :
    (table.put name value).names = table.names := by
  -- The put stops at the first entry of its name, and leaves the name as it is.
  induction table with
  | nil => simp [names] at member
  | cons entry table ih =>
    obtain ⟨first, old⟩ := entry
    rw [put]
    split
    · rename_i same
      simp [names, same]
    · rename_i different
      simp only [names, List.map_cons, List.mem_cons] at member ⊢
      rcases member with same | later
      · exact absurd same.symm different
      · rw [show (put table name value).map (·.1) = table.map (·.1) from ih later]

/-- After a put the names are those from before and the name that was put. -/
theorem mem_names_put :
    other ∈ (table.put name value).names ↔ other = name ∨ other ∈ table.names := by
  -- A put keeps all names, or adds its own one at the end.
  by_cases member : name ∈ table.names
  · rw [names_put_of_mem member]
    constructor
    · exact Or.inr
    · rintro (rfl | old)
      · exact member
      · exact old
  · rw [put_of_not_mem member]
    simp [names, or_comm]

/-- A put keeps the names distinct. -/
theorem nodup_names_put (distinct : table.names.Nodup) : (table.put name value).names.Nodup := by
  -- The names are the same ones, or there is one more that is new.
  by_cases member : name ∈ table.names
  · rwa [names_put_of_mem member]
  · rw [put_of_not_mem member]
    simp only [names, List.map_append, List.map_cons, List.map_nil] at distinct member ⊢
    refine List.nodup_append.mpr ⟨distinct, List.nodup_singleton _, ?_⟩
    rintro old oldMember last isName rfl
    rw [List.mem_singleton.mp isName] at oldMember
    exact member oldMember

/-- Putting what is there already changes nothing. -/
theorem put_of_get? (found : table.get? name = some value) : table.put name value = table := by
  -- The entry that the put replaces is the one that is found.
  induction table with
  | nil => simp at found
  | cons entry table ih =>
    obtain ⟨first, old⟩ := entry
    rw [get?_cons] at found
    rw [put]
    split
    · rename_i same
      obtain rfl : old = value := Option.some.inj ((if_pos same).symm.trans found)
      rw [same]
    · rename_i different
      rw [if_neg different] at found
      rw [ih found]

/-- Pairs of distinct new names are put one behind the other. -/
private theorem foldl_put_of_nodup (pairs : List (String × α)) :
    ∀ table : NameTable α, (table ++ pairs).map (·.1) |>.Nodup →
      pairs.foldl (fun table pair => table.put pair.1 pair.2) table = table ++ pairs := by
  -- By induction on the pairs, each of which comes after all that are put already.
  induction pairs with
  | nil => simp
  | cons pair pairs ih =>
    intro table distinct
    have new : pair.1 ∉ table.names := by
      simp only [List.map_append, List.map_cons] at distinct
      exact fun member => (List.nodup_append.mp distinct).2.2 _ member _ (by simp) rfl
    rw [List.foldl_cons, put_of_not_mem new, ih _ (by simpa using distinct)]
    simp

/-- Pairs of distinct names are a table already. -/
theorem ofPairs_of_nodup {pairs : List (String × α)} (distinct : (pairs.map (·.1)).Nodup) :
    ofPairs pairs = pairs := by
  rw [ofPairs, foldl_put_of_nodup pairs [] (by simpa using distinct), List.nil_append]

/-- A table is built from left to right, the last pair put last. -/
theorem ofPairs_append (pairs : List (String × α)) (pair : String × α) :
    ofPairs (pairs ++ [pair]) = (ofPairs pairs).put pair.1 pair.2 := by
  rw [ofPairs, List.foldl_append]
  rfl

/-- Values that are assigned to names, each as often as it is listed, are found under them. -/
theorem get?_ofPairs_map_pair (names : List String) (value : String → α) (name : String) :
    (ofPairs (names.map fun name => (name, value name))).get? name =
      if name ∈ names then some (value name) else none := by
  -- By induction on the names from the first on, as they are put.
  induction names using List.reverseRecOn with
  | nil => rfl
  | append_singleton names latest ih =>
    rw [List.map_append, List.map_singleton, ofPairs_append, get?_put, ih]
    by_cases same : latest = name
    · simp [same]
    · have different : name ≠ latest := fun equal => same equal.symm
      simp [same, different]

/-- A table that assigns a value to each of its names finds these values. -/
theorem get?_map_pair (names : List String) (value : String → α) (name : String) :
    get? (names.map fun name => (name, value name)) name =
      if name ∈ names then some (value name) else none := by
  -- By induction on the names: the first one is found, or a later one is.
  induction names with
  | nil => rfl
  | cons first names ih =>
    rw [List.map_cons, get?_cons, ih]
    by_cases same : first = name
    · simp [same]
    · have different : name ≠ first := fun equal => same equal.symm
      simp [same, different]

/-- A table made by giving each listed name a value has just the listed names. -/
@[simp] theorem names_map_pair (listed : List String) (value : String → α) :
    names (listed.map fun name => (name, value name)) = listed := by
  simp [names, Function.comp_def]

/-- Mapping the values commutes with looking a name up. -/
theorem get?_mapValues (f : α → β) (table : NameTable α) (name : String) :
    (table.mapValues f).get? name = (table.get? name).map f := by
  -- The look-up compares the same names in both tables.
  induction table with
  | nil => rfl
  | cons entry table ih =>
    rw [mapValues, List.map_cons, get?_cons, get?_cons]
    split
    · rfl
    · exact ih

/-- Mapping the values keeps the names and their order. -/
@[simp] theorem names_mapValues (f : α → β) (table : NameTable α) :
    (table.mapValues f).names = table.names := by
  simp [names, mapValues]

/-- Mapping the values commutes with a put. -/
theorem mapValues_put (f : α → β) (table : NameTable α) (name : String) (value : α) :
    (table.put name value).mapValues f = (table.mapValues f).put name (f value) := by
  -- The put stops at the same entry of either table.
  induction table with
  | nil => rfl
  | cons entry table ih =>
    obtain ⟨other, old⟩ := entry
    simp only [put, mapValues, List.map_cons]
    split
    · rfl
    · exact congrArg (_ :: ·) ih

/-- Mapping the values commutes with building a table. -/
theorem mapValues_ofPairs (f : α → β) (pairs : List (String × α)) :
    (ofPairs pairs).mapValues f = ofPairs (mapValues f pairs) := by
  -- The puts of the mapped pairs are the puts of the pairs, mapped.
  have puts : pairs.foldl (fun table pair => table.put pair.1 (f pair.2)) (mapValues f []) =
      mapValues f (pairs.foldl (fun table pair => table.put pair.1 pair.2) []) :=
    List.foldl_hom (mapValues f) fun table pair => (mapValues_put f table pair.1 pair.2).symm
  rw [ofPairs, ofPairs, ← puts, show mapValues f pairs = pairs.map fun pair => (pair.1, f pair.2)
    from rfl, List.foldl_map]
  rfl

/-- Among the entries of some names, what is found under one of these names stays the same. -/
theorem get?_filter_contains (table : NameTable α) (kept : List String) (name : String) :
    get? (table.filter fun entry => kept.contains entry.1) name =
      if name ∈ kept then table.get? name else none := by
  induction table with
  | nil => simp
  | cons entry table ih =>
    by_cases here : entry.1 = name
    · -- The first entry of the name is kept if the name is.
      subst here
      by_cases member : entry.1 ∈ kept
      · rw [List.filter_cons_of_pos (by simpa using member), get?_cons, get?_cons, if_pos rfl,
          if_pos rfl, if_pos member]
      · rw [List.filter_cons_of_neg (by simpa using member), ih, if_neg member, if_neg member]
    · -- An entry of another name does not matter, kept or not.
      rw [get?_cons, if_neg here, ← ih, List.filter_cons]
      split
      · rw [get?_cons, if_neg here]
      · rfl

/-- Tables with the same distinct names in the same order that find the same values are equal. -/
theorem ext_get? {first second : NameTable α} (names_eq : first.names = second.names)
    (distinct : first.names.Nodup) (same : ∀ name, first.get? name = second.get? name) :
    first = second := by
  induction first generalizing second with
  | nil =>
    cases second with
    | nil => rfl
    | cons entry second => simp [names] at names_eq
  | cons entry first ih =>
    cases second with
    | nil => simp [names] at names_eq
    | cons another second =>
      simp only [names, List.map_cons, List.cons.injEq] at names_eq
      simp only [names, List.map_cons, List.nodup_cons] at distinct
      -- Under the first name both tables find their first entry.
      have head := same entry.1
      rw [get?_cons, get?_cons, if_pos rfl, if_pos names_eq.1.symm] at head
      have entry_eq : entry = another := Prod.ext names_eq.1 (Option.some.inj head)
      subst entry_eq
      refine congrArg (entry :: ·) (ih names_eq.2 distinct.2 fun name => ?_)
      by_cases here : entry.1 = name
      · -- Neither rest has the name of the first entry once more.
        subst here
        have absent : entry.1 ∉ names second := by
          rw [names, ← names_eq.2]
          exact distinct.1
        rw [get?_eq_none_iff.mpr distinct.1, get?_eq_none_iff.mpr absent]
      · -- Under any other name both look on in the rest.
        have rest := same name
        rwa [get?_cons, get?_cons, if_neg here, if_neg here] at rest

/-- The number under a name, zero if there is none. -/
def valueAt (table : NameTable Int) (name : String) : Int := (table.get? name).getD 0

/-- The value at a name that is found is what is found there. -/
theorem valueAt_of_get? {table : NameTable Int} {number : Int}
    (found : table.get? name = some number) : table.valueAt name = number := by
  rw [valueAt, found, Option.getD_some]

/-- A table that assigns a number to each of its names has these numbers. -/
theorem valueAt_map_pair {listed : List String} (number : String → Int) (member : name ∈ listed) :
    valueAt (listed.map fun name => (name, number name)) name = number name :=
  valueAt_of_get? (by rw [get?_map_pair, if_pos member])

/-- A put changes the value at its own name only. -/
theorem valueAt_put (table : NameTable Int) (name other : String) (number : Int) :
    (table.put name number).valueAt other =
      if name = other then number else table.valueAt other := by
  rw [valueAt, get?_put]
  split <;> rfl

/-- Each name of a table is found there, with the value at it. -/
theorem get?_of_mem_names {table : NameTable Int} (member : name ∈ table.names) :
    table.get? name = some (table.valueAt name) := by
  obtain ⟨number, found⟩ := exists_get?_of_mem member
  rw [valueAt_of_get? found, found]

/-- A table can be listed under its names in any order. -/
theorem get?_map_valueAt {table : NameTable Int} {listed : List String}
    (same : ∀ name, name ∈ table.names ↔ name ∈ listed) (name : String) :
    get? (listed.map fun name => (name, table.valueAt name)) name = table.get? name := by
  -- A name is found in both tables, or in neither of them.
  rw [get?_map_pair]
  split
  · rename_i member
    exact (get?_of_mem_names ((same name).mpr member)).symm
  · rename_i absent
    exact (get?_eq_none_iff.mpr fun found => absent ((same name).mp found)).symm

end CycleSchedule.NameTable
