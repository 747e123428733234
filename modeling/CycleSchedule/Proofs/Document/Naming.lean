import CycleSchedule.Proofs.Document.Notation

/-! Loading a file adds to its document nothing but a name for the problem, and that only where the
document gives none, or spells out the one that is taken then. -/

namespace CycleSchedule.Document

variable {α : Type} {read : Value → Reading α} {document : Value} {name : String}

/-- An optional field that is absent has its default. -/
theorem optional_of_absent {absent : α} (unsaid : document.field? name = none) :
    optional read document name absent = .ok absent := by
  simp only [optional, unsaid]

/-- What an optional member is read as is what its reader makes of it. -/
theorem read_of_optional_eq_ok {member : Value} {a absent : α}
    (found : document.field? name = some member)
    (isRead : optional read document name absent = .ok a) : read member = .ok a := by
  rw [optional, found] at isRead
  -- A member that cannot be read would have been reported, not replaced by the standard value.
  cases here : read member with
  | ok b => simpa only [here, Reading.within] using isRead
  | error mismatches => simp [here, Reading.within] at isRead

/-- In a document that loads, the name can be read. -/
theorem optional_name_of_parseProblem {loaded : LoadedProblem}
    (parses : parseProblem document = .ok loaded) :
    optional readText document "name" Problem.defaultName = .ok loaded.problem.name := by
  rw [parseProblem] at parses
  cases isRead : readProblem document with
  | error mismatches =>
    rw [isRead] at parses
    cases parses
  | ok result =>
    rw [isRead] at parses
    obtain rfl : result = loaded := Except.ok.inj parses
    -- The name is the first of the six parts that are read side by side.
    simp only [readProblem, Reading.map_eq_ok_iff, Reading.both_eq_ok_iff] at isRead
    obtain ⟨parts, ⟨nameRead, -⟩, rfl⟩ := isRead
    exact nameRead

/-- A document without a name gives its problem the name that stands for none. -/
theorem name_of_absent {loaded : LoadedProblem} (parses : parseProblem document = .ok loaded)
    (unsaid : document.field? "name" = none) : loaded.problem.name = Problem.defaultName := by
  have nameRead := optional_name_of_parseProblem parses
  rw [optional_of_absent unsaid] at nameRead
  exact (Except.ok.inj nameRead).symm

/-- A name in a document is the name of its problem. -/
theorem name_of_given {loaded : LoadedProblem} (parses : parseProblem document = .ok loaded)
    {given : Value} (found : document.field? "name" = some given) :
    readText given = .ok loaded.problem.name :=
  read_of_optional_eq_ok found (optional_name_of_parseProblem parses)

/-- A mapping with texts for keys is read from a file as it is parsed, and then named. -/
theorem loadEntry_of_parses {reader : String → Except Yaml.Fault Value} {path : Path}
    {text : String} {entries : List (Atom × Value)} {loaded : LoadedProblem}
    (isRead : reader text = .ok (.map entries))
    (textKeys : ∀ entry ∈ entries, isTextKey entry.1 = true)
    (parses : parseProblem (.map entries) = .ok loaded) :
    loadEntry reader path (.file text) = .ok (nameAfter path loaded) := by
  have named : (entries.all fun entry => isTextKey entry.1) = true := List.all_eq_true.mpr textKeys
  rw [loadEntry, isRead, interpret, if_pos named, parses]
  rfl

/-- Naming changes the name at most. -/
theorem nameAfter_eq (path : Path) (loaded : LoadedProblem) :
    nameAfter path loaded =
      { loaded with
        problem :=
          { loaded.problem with
            name := if loaded.problem.name = Problem.defaultName then path.stem
              else loaded.problem.name } } := by
  unfold nameAfter
  -- The default name is replaced, and any other one is kept.
  split
  · rfl
  · rfl

/-- A file with a document that parses loads as the document does, but for the name of the problem:
without a name in the document it is the stem of the path, and a name in the document stays, unless
it spells out the one that stands for none. -/
theorem loadEntry_adds_name (reader : String → Except Yaml.Fault Value) (path : Path)
    (text : String) (entries : List (Atom × Value)) (loaded : LoadedProblem)
    (isRead : reader text = .ok (.map entries))
    (textKeys : ∀ entry ∈ entries, isTextKey entry.1 = true)
    (parses : parseProblem (.map entries) = .ok loaded) :
    ∃ name : String,
      loadEntry reader path (.file text) =
          .ok { loaded with problem := { loaded.problem with name := name } } ∧
        ((Value.map entries).field? "name" = none → name = path.stem) ∧
        ∀ given, (Value.map entries).field? "name" = some given →
          ∃ spelt, readText given = .ok spelt ∧ loaded.problem.name = spelt ∧
            (spelt ≠ Problem.defaultName → name = spelt) ∧
            (spelt = Problem.defaultName → name = path.stem) := by
  have loads : loadEntry reader path (.file text) = .ok (nameAfter path loaded) :=
    loadEntry_of_parses isRead textKeys parses
  rw [nameAfter_eq] at loads
  refine ⟨_, loads, fun unsaid => ?_, fun given found => ?_⟩
  · -- The name that stands for none gives way to the stem.
    exact if_pos (name_of_absent parses unsaid)
  · exact ⟨loaded.problem.name, name_of_given parses found, rfl, fun other => if_neg other,
      fun same => if_pos same⟩

/-- Whether a document says nothing but a name. -/
def saysOnlyName (name : String) : Value → Bool
  | .map [(key, .atom given)] => key = .text "name" && given = .text name
  | _ => false

/-- A document that says a name and nothing else is one record of one field. -/
theorem eq_of_saysOnlyName (only : saysOnlyName name document = true) :
    document = .map [(.text "name", .text name)] := by
  unfold saysOnlyName at only
  split at only
  · -- The only document that is told apart is the one entry itself.
    simp only [Bool.and_eq_true, decide_eq_true_eq] at only
    obtain ⟨rfl, rfl⟩ := only
    rfl
  · cases only

/-- A text is read as a document that says nothing but a name, if what is read from it says so. -/
theorem read_eq_of_saysOnlyName {text : String}
    (only : (Yaml.read text).toOption.any (saysOnlyName name) = true) :
    Yaml.read text = .ok (.map [(.text "name", .text name)]) := by
  -- A text that cannot be read says nothing.
  cases outcome : Yaml.read text with
  | ok root =>
    rw [outcome] at only
    rw [eq_of_saysOnlyName only]
  | error fault =>
    rw [outcome] at only
    cases only

/-- What a document that says nothing but a name loads to. -/
theorem parseProblem_onlyName (name : String) :
    parseProblem (.map [(.text "name", .text name)]) =
      .ok ⟨.empty name, SchedulingConfig.default⟩ := by
  -- Every other field is absent, so it keeps its standard value.
  have others : ∀ other, other ≠ "name" →
      (Value.map [(.text "name", .text name)]).field? other = none := by
    intro other different
    have : ¬ "name" = other := fun same => different same.symm
    simp [Value.field?, this]
  have own : (Value.map [(.text "name", .text name)]).field? "name" = some (.text name) := rfl
  simp only [parseProblem, readProblem, optional, own, others "operator_types" (by decide),
    others "operations" (by decide), others "dependences" (by decide),
    others "last_operation" (by decide), others "scheduler" (by decide)]
  rfl

/-- A name in a file is kept, whatever the file is called. -/
theorem loadEntry_keeps_kernel :
    Yaml.read "name: kernel\n" = .ok (.map [(.text "name", .text "kernel")]) ∧
      loadEntry Yaml.read ⟨"", ["file.yaml"]⟩ (.file "name: kernel\n") =
        .ok ⟨.empty "kernel", SchedulingConfig.default⟩ := by
  have isRead : Yaml.read "name: kernel\n" = .ok (.map [(.text "name", .text "kernel")]) :=
    read_eq_of_saysOnlyName (by decide +kernel)
  obtain ⟨name, loads, -, given⟩ := loadEntry_adds_name Yaml.read ⟨"", ["file.yaml"]⟩
    "name: kernel\n" _ _ isRead (by simp [isTextKey]) (parseProblem_onlyName "kernel")
  -- The name is given and is not the standard one, so it is kept.
  obtain ⟨spelt, isSpelt, -, keeps, -⟩ := given (.text "kernel") rfl
  obtain rfl : "kernel" = spelt := Except.ok.inj isSpelt
  obtain rfl := keeps (by decide)
  exact ⟨isRead, loads⟩

/-- The stem of the file's path is its name without the extension. -/
theorem stem_p : Path.stem ⟨"", ["p.yaml"]⟩ = "p" := by
  have parts : "p.yaml".splitOn "." = ["p", "yaml"] := by
    simp +decide [String.splitOn, String.splitOnAux]
  simp +decide [Path.stem, parts]

/-- The name that stands for none is lost where a file spells it out. -/
theorem load_loses_spelt_default :
    ∃ entries loaded, Yaml.read "name: problem\n" = .ok (.map entries) ∧
      (Value.map entries).field? "name" = some (.text "problem") ∧
      parseProblem (.map entries) = .ok loaded ∧ loaded.problem.name = "problem" ∧
      load (fun _ => .file "name: problem\n") ⟨"", ["p.yaml"]⟩ =
        .ok { loaded with problem := { loaded.problem with name := "p" } } := by
  have isRead : Yaml.read "name: problem\n" = .ok (.map [(.text "name", .text "problem")]) :=
    read_eq_of_saysOnlyName (by decide +kernel)
  have parses := parseProblem_onlyName "problem"
  refine ⟨_, _, isRead, rfl, parses, rfl, ?_⟩
  -- The spelt name is the standard one, so the stem of the path takes its place.
  rw [load, loadEntry_of_parses isRead (by simp [isTextKey]) parses, nameAfter_eq, stem_p]
  rfl

end CycleSchedule.Document
