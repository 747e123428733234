import CycleSchedule.Command.Run

/-! What loading a file leads to: a problem, or a fault that is reported with something to say,
unless the document is a mapping in which a field has no name. -/

namespace CycleSchedule.Document

variable {α β : Type} {read : Value → Reading α} {value : Value}

/-- A reading that tells at least one mismatch where it fails. -/
def Reading.Tells (reading : Reading α) : Prop := reading ≠ .error []

namespace Reading.Tells

variable {reading : Reading α} {second : Reading β}

/-- A reading that succeeds has nothing to tell of. -/
@[simp] theorem ok (a : α) : Reading.Tells (.ok a : Reading α) := by simp [Reading.Tells]

/-- A mismatch of its own is one to tell of. -/
@[simp] theorem unexpected (expectation : Expectation) :
    (Reading.unexpected expectation : Reading α).Tells := by
  simp [Reading.Tells, Reading.unexpected]

/-- A reading within a field tells of what the inner reading tells of. -/
theorem within (tells : reading.Tells) (step : PathStep) : (reading.within step).Tells := by
  cases reading with
  | ok a => simp [Reading.within]
  | error mismatches => simpa [Reading.Tells, Reading.within] using tells

/-- Mapping a result keeps the mismatches. -/
theorem map (tells : reading.Tells) (f : α → β) : Reading.Tells (Except.map f reading) := by
  cases reading with
  | ok a => simp [Except.map]
  | error mismatches => simpa [Reading.Tells, Except.map] using tells

/-- Two readings side by side tell what either of them tells. -/
theorem both (tells : reading.Tells) (tellsToo : second.Tells) : (reading.both second).Tells := by
  cases reading with
  | ok a =>
    cases second with
    | ok b => simp [Reading.both]
    | error later => simpa [Reading.Tells, Reading.both] using tellsToo
  | error early =>
    cases second with
    | ok b => simpa [Reading.Tells, Reading.both] using tells
    -- Both report, and the reports are joined.
    | error later =>
      have : early ≠ [] := by simpa [Reading.Tells] using tells
      simp [Reading.Tells, Reading.both, this]

/-- Mismatches that are put together tell something if each part does. -/
theorem all {readings : List (Reading α)} (tells : ∀ reading ∈ readings, reading.Tells) :
    (Reading.all readings).Tells := by
  induction readings with
  | nil => simp [Reading.all]
  | cons reading readings ih =>
    rw [List.forall_mem_cons] at tells
    -- What is wrong in the first place is told of, and else what is wrong in the rest.
    exact (tells.1.both (ih tells.2)).map _

end Reading.Tells

/-- A reader that tells at least one mismatch of every value that it cannot read. -/
def Telling (read : Value → Reading α) : Prop := ∀ value, (read value).Tells

namespace Telling

/-- A required field tells of its absence, or of what its reader tells. -/
theorem required (telling : Telling read) (name : String) (value : Value) :
    (required read value name).Tells := by
  fun_cases Document.required read value name with
  | case1 member => exact (telling member).within _
  | case2 => exact (Reading.Tells.unexpected _).within _

/-- An optional field tells of what its reader tells. -/
theorem optional (telling : Telling read) (name : String) (absent : α) (value : Value) :
    (optional read value name absent).Tells := by
  fun_cases Document.optional read value name absent with
  | case1 member => exact (telling member).within _
  | case2 => exact .ok absent

/-- A reader of records tells of a value that is no record. -/
theorem record (telling : Telling read) : Telling (readRecord read) := by
  intro value
  -- Only a mapping is a record.
  fun_cases readRecord read value with
  | case1 entries => exact telling _
  | case2 => exact .unexpected _

/-- A reader that lets null pass tells of what the reader behind it tells. -/
theorem orNull (telling : Telling read) : Telling (readOptional read) := by
  -- An absent value is fine as it is.
  intro value
  fun_cases readOptional read value with
  | case1 => exact .ok none
  | case2 => exact (telling _).map _

/-- The readings of a list tell of the items that fail. -/
theorem items (telling : Telling read) (items : List Value) : (readItems read items).Tells := by
  refine Reading.Tells.all fun reading isItem => ?_
  obtain ⟨⟨item, n⟩, -, rfl⟩ := List.mem_map.mp isItem
  exact (telling item).within _

end Telling

/-- The reader of texts tells why it fails. -/
theorem telling_readText : Telling readText := by
  intro value
  fun_cases readText value <;> simp

/-- The reader of digits in a text tells why it fails. -/
theorem tells_readNumeral (s : String) : (readNumeral s).Tells := by
  fun_cases readNumeral s <;> simp

/-- The reader of whole floating-point numbers tells why it fails. -/
theorem tells_readWhole (x : Binary64) : (readWhole x).Tells := by
  fun_cases readWhole x <;> simp

/-- The reader of integers tells why it fails. -/
theorem telling_readInt : Telling readInt := by
  intro value
  fun_cases readInt value <;> simp [tells_readWhole, tells_readNumeral]

/-- The reader of truth values from words tells why it fails. -/
theorem tells_readTruthWord (s : String) : (readTruthWord s).Tells := by
  fun_cases readTruthWord s <;> simp

/-- The reader of truth values from numbers tells why it fails. -/
theorem tells_readTruthNumber (n : Int) : (readTruthNumber n).Tells := by
  fun_cases readTruthNumber n <;> simp

/-- The reader of truth values tells why it fails. -/
theorem telling_readBool : Telling readBool := by
  intro value
  fun_cases readBool value <;> simp [tells_readTruthNumber, tells_readTruthWord]

/-- The reader of a choice among names tells why it fails. -/
theorem telling_readChoice (ofName? : String → Option α) : Telling (readChoice ofName?) := by
  intro value
  fun_cases readChoice ofName? value <;> simp

/-- The reader of settings tells why it fails. -/
theorem telling_readSettings : Telling readSettings := by
  refine Telling.record fun value => Reading.Tells.map ?_ _
  -- One reading per field, in the order in which the record lists them.
  have algorithm := (telling_readChoice Algorithm.ofName?).optional "algorithm"
    SchedulingConfig.default.algorithm value
  have variant := (telling_readChoice Variant.ofName?).orNull.optional "variant"
    SchedulingConfig.default.variant value
  have last := telling_readText.orNull.optional "last_operation"
    SchedulingConfig.default.last value
  have verify := telling_readBool.optional "verify_solution"
    SchedulingConfig.default.verifySolution value
  have simplex : Telling readSimplexSettings :=
    Telling.record (telling_readBool.optional "minimize_sum_of_starts" true)
  exact algorithm.both (variant.both (last.both (verify.both (simplex.optional _ _ value))))

/-- The reader of one operator type tells why it fails. -/
theorem tells_readOperatorType (key : Atom) (value : Value) :
    (readOperatorType key value).Tells := by
  have name : (readTypeName key).Tells := ((telling_readText _).within _).within _
  have quantities : Telling readQuantities :=
    Telling.record fun value => (telling_readInt.required "latency" value).both
      (telling_readInt.orNull.optional "limit" none value)
  unfold readOperatorType
  -- A bare number stands for a latency, everything else is read as a record.
  cases value.toInt? with
  | some latency => exact (name.both ((Reading.Tells.ok _).within _)).map _
  | none => exact (name.both ((quantities value).within _)).map _

/-- The reader of operator types, listed or keyed by name, tells why it fails. -/
theorem telling_readOperatorTypes : Telling readOperatorTypes := by
  intro value
  fun_cases readOperatorTypes value with
  | case1 => exact .ok []
  | case2 entries =>
    refine (Reading.Tells.all fun reading isEntry => ?_).map _
    -- The entries are read one by one, so it is enough that each of them tells.
    obtain ⟨⟨key, value⟩, -, rfl⟩ := List.mem_map.mp isEntry
    exact tells_readOperatorType key value
  | case3 => exact .unexpected _

/-- The reader of one operation tells why it fails. -/
theorem telling_readOperation : Telling readOperation :=
  Telling.record fun value =>
    ((telling_readText.required "name" value).both (telling_readText.required "type" value)).map _

/-- The reader of operations tells why it fails. -/
theorem telling_readOperations : Telling readOperations := by
  -- Lists, sets and mappings are read item by item, and anything else is no list.
  intro value
  fun_cases readOperations value with
  | case1 => exact .ok []
  | case2 items => exact telling_readOperation.items items
  | case3 items => exact telling_readOperation.items _
  | case4 entries => exact telling_readOperation.items _
  | case5 => exact .unexpected _

/-- The reader of an endpoint, under either of its two field names, tells why it fails. -/
theorem tells_readEndpoint (value : Value) (preferred other : String) :
    (readEndpoint value preferred other).Tells := by
  fun_cases readEndpoint value preferred other with
  | case1 => exact telling_readText.required other value
  | case2 => exact telling_readText.required preferred value

/-- The reader of a dependence written as a record tells why it fails. -/
theorem telling_readDependenceRecord : Telling readDependenceRecord :=
  -- Either spelling of an end will do, and a distance may be left out.
  Telling.record fun value =>
    ((tells_readEndpoint value "from" "source").both
      ((tells_readEndpoint value "to" "destination").both
        (telling_readInt.optional "distance" 0 value))).map _

/-- The reader of a dependence in either notation tells why it fails. -/
theorem telling_readDependence : Telling readDependence := by
  -- A text is read or refused as a line, and anything else is taken for a record.
  intro value
  fun_cases readDependence value with
  | case1 => exact .ok _
  | case2 => exact .unexpected _
  | case3 => exact telling_readDependenceRecord _

/-- The reader of dependences tells why it fails. -/
theorem telling_readDependences : Telling readDependences := by
  -- A bad line is complained of in place of all items.
  intro value
  fun_cases readDependences value with
  | case1 => exact .ok []
  | case2 => exact .unexpected _
  | case3 items => exact telling_readDependence.items items
  | case4 items => exact telling_readDependenceRecord.items _
  | case5 => exact .unexpected _

/-- A document that is no problem has at least one place where it is not what was expected. -/
theorem telling_readProblem : Telling readProblem := by
  intro value
  -- All six parts are read, whichever of them is wrong.
  have name := telling_readText.optional "name" Problem.defaultName value
  have operatorTypes := telling_readOperatorTypes.optional "operator_types" [] value
  have operations := telling_readOperations.optional "operations" [] value
  have dependences := telling_readDependences.optional "dependences" [] value
  have last := telling_readText.orNull.optional "last_operation" none value
  have settings := telling_readSettings.orNull.optional "scheduler" none value
  exact (name.both (operatorTypes.both (operations.both
    (dependences.both (last.both settings))))).map _

/-- Whether a value is a mapping in which a field has no name: one of its keys is no text. -/
def hasUnnamedField : Value → Bool
  | .map entries => entries.any fun entry => !isTextKey entry.1
  | _ => false

/-- Loading gives a problem, or a fault that is put in words; a document that is no problem is
reported with at least one place where it is not what was expected. -/
def Handled : Except LoadFault LoadedProblem → Prop
  | .ok _ => True
  | .error fault => fault.message?.isSome = true ∧ fault ≠ .mismatched []

/-- Whatever the document, parsing it ends with a problem or with a fault that a loader handles. -/
theorem handled_parseProblem (value : Value) : Handled (parseProblem value) := by
  unfold parseProblem
  cases outcome : readProblem value with
  | ok loaded => trivial
  | error mismatches =>
    -- A refusal without a single mismatch is what `Telling` rules out.
    have told := telling_readProblem value
    rw [outcome] at told
    have : mismatches ≠ [] := fun none => told (by rw [none])
    exact ⟨rfl, fun same => this (LoadFault.mismatched.inj same)⟩

/-- Mapping what was loaded handles no fault and adds none. -/
theorem handled_map_iff (outcome : Except LoadFault LoadedProblem)
    (f : LoadedProblem → LoadedProblem) : Handled (outcome.map f) ↔ Handled outcome := by
  cases outcome <;> exact Iff.rfl

/-- A value that has a field without a name is not even looked at. -/
theorem interpret_unnamed {root : Value} (unnamed : hasUnnamedField root = true) :
    interpret (.ok root) = .error .unnamedField := by
  cases root with
  | map entries =>
    -- Some key is no text, which is the first thing that `interpret` asks about.
    rw [hasUnnamedField, ← List.not_all_eq_any_not, Bool.not_eq_true'] at unnamed
    simp [interpret, unnamed]
  | atom a => cases unnamed
  | list items => cases unnamed
  | set items => cases unnamed

/-- Every other value is a problem, or what is wrong with it is reported. -/
theorem handled_interpret {root : Value} (named : hasUnnamedField root = false) :
    Handled (interpret (.ok root)) := by
  cases root with
  | map entries =>
    -- Every key is a text, so the mapping is read as a problem.
    rw [hasUnnamedField, ← List.not_all_eq_any_not, Bool.not_eq_false'] at named
    simpa [interpret, named] using handled_parseProblem (.map entries)
  | atom a => exact ⟨rfl, nofun⟩
  | list items => exact ⟨rfl, nofun⟩
  | set items => exact ⟨rfl, nofun⟩

section

variable {look : Path → Entry} {request : Command.Request} {fault : LoadFault}

/-- A request for a file that gives no problem is reported with exit code 1. -/
theorem run_of_handled (handled : Handled (.error fault))
    (failed : load look (Path.ofText request.file) = .error fault) :
    ∃ message, fault.message? = some message ∧
      request.run look = .ok (Command.failed [] message) := by
  obtain ⟨message, words⟩ := Option.isSome_iff_exists.mp handled.1
  refine ⟨message, words, ?_⟩
  simp only [Command.Request.run, failed, words]

/-- A request for a file in which a field has no name stops the program. -/
theorem run_of_unnamed (failed : load look (Path.ofText request.file) = .error .unnamedField) :
    request.run look = .error (.unloadable .unnamedField) := by
  simp only [Command.Request.run, failed, LoadFault.message?]

end

/-- What a reader finds in a text is a document in which a field has no name. -/
def FindsUnnamedField (read : String → Except Yaml.Fault Value) (text : String) : Prop :=
  ∃ root, read text = .ok root ∧ hasUnnamedField root = true

/-- A file whose text is read, or is rejected as no document, ends in one of two ways. -/
theorem loadEntry_cases {read : String → Except Yaml.Fault Value} {text : String}
    (settled : read text = .error .notWellFormed ∨ ∃ root, read text = .ok root) (path : Path) :
    FindsUnnamedField read text ∧ loadEntry read path (.file text) = .error .unnamedField ∨
      ¬FindsUnnamedField read text ∧ Handled (loadEntry read path (.file text)) := by
  have outcome : loadEntry read path (.file text) = (interpret (read text)).map (nameAfter path) :=
    rfl
  rw [outcome, handled_map_iff]
  rcases settled with rejected | ⟨root, isRoot⟩
  · -- A text that is not well formed has no root, so it has no unnamed field either.
    refine .inr ⟨?_, by rw [rejected]; exact ⟨rfl, nofun⟩⟩
    rintro ⟨root, isRoot, -⟩
    cases rejected.symm.trans isRoot
  · rw [isRoot]
    cases unnamed : hasUnnamedField root with
    | true => exact .inl ⟨⟨root, isRoot, unnamed⟩, by rw [interpret_unnamed unnamed]; rfl⟩
    | false =>
      refine .inr ⟨?_, handled_interpret unnamed⟩
      rintro ⟨other, isOther, otherUnnamed⟩
      cases isRoot.symm.trans isOther
      cases unnamed.symm.trans otherUnnamed

/-- A file whose text is read, or is rejected as no document, is loaded or its fault is reported,
and a request for it then exits with code 1; a mapping with a field that has no name stops the
program instead, and nothing else does. -/
theorem loadEntry_handled_iff (read : String → Except Yaml.Fault Value) (path : Path)
    (text : String)
    (settled : read text = .error .notWellFormed ∨ ∃ root, read text = .ok root) :
    (Handled (loadEntry read path (.file text)) ↔ ¬FindsUnnamedField read text) ∧
      ∀ (look : Path → Entry) (request : Command.Request),
        load look (Path.ofText request.file) = loadEntry read path (.file text) →
          (FindsUnnamedField read text →
              request.run look = .error (.unloadable .unnamedField)) ∧
            (¬FindsUnnamedField read text →
              ∀ fault, loadEntry read path (.file text) = .error fault → ∃ message,
                fault.message? = some message ∧
                request.run look = .ok (Command.failed [] message)) := by
  -- The two outcomes exclude each other, so each half of the equivalence is one of them.
  rcases loadEntry_cases settled path with ⟨unnamed, stops⟩ | ⟨named, handled⟩
  · refine ⟨?_, fun look request same => ⟨fun _ => ?_, fun named => absurd unnamed named⟩⟩
    · rw [stops]
      exact ⟨nofun, fun named => absurd unnamed named⟩
    · exact run_of_unnamed (same.trans stops)
  · refine ⟨⟨fun _ => named, fun _ => handled⟩, fun look request same =>
      ⟨fun unnamed => absurd unnamed named, fun _ fault failed => ?_⟩⟩
    exact run_of_handled (failed ▸ handled) (same.trans failed)

/-- A number can stand where the name of a field should be. -/
theorem findsUnnamedField_number : FindsUnnamedField Yaml.read "1: a\n" := by
  -- The root is a mapping with a number for a key.
  have found : (Yaml.read "1: a\n").toOption.any hasUnnamedField = true := by decide +kernel
  cases outcome : Yaml.read "1: a\n" with
  | ok root => exact ⟨root, outcome, by simpa [outcome, Except.toOption] using found⟩
  | error fault => simp [outcome, Except.toOption] at found

/-- A number in place of the name of a field is read, and then stops the program. -/
theorem load_numbered_field :
    (∃ root, Yaml.read "1: a\n" = .ok root) ∧
      load (fun _ => .file "1: a\n") ⟨"", ["p.yaml"]⟩ = .error .unnamedField ∧
      LoadFault.message? .unnamedField = none := by
  -- The text is read, and what is read has a field without a name.
  obtain ⟨root, isRoot, unnamed⟩ := findsUnnamedField_number
  refine ⟨⟨root, isRoot⟩, ?_, rfl⟩
  rw [load, loadEntry, isRoot, interpret_unnamed unnamed]
  rfl

/-- A document whose only field has a number for a name is neither loaded nor reported. -/
theorem not_handled_numbered_field :
    (∃ root, Yaml.read "1: a\n" = .ok root) ∧
      ¬Handled (loadEntry Yaml.read ⟨"", ["p.yaml"]⟩ (.file "1: a\n")) := by
  have settled : ∃ root, Yaml.read "1: a\n" = .ok root :=
    findsUnnamedField_number.imp fun _ both => both.1
  refine ⟨settled, fun handled => ?_⟩
  exact (loadEntry_handled_iff Yaml.read ⟨"", ["p.yaml"]⟩ "1: a\n" (.inr settled)).1.mp handled
    findsUnnamedField_number

end CycleSchedule.Document
