import CycleSchedule.Document.Load
import CycleSchedule.Proofs.Document.RoundTrip
import CycleSchedule.Proofs.Problem.WellFormed
import Mathlib.Data.List.Forall2

/-! A problem may be written down in several notations; all of them load to the same problem, and
the settings beside it do not depend on them. -/

namespace CycleSchedule

namespace Document

variable {α ι : Type} {read : Value → Reading α} {value : Value} {name : String}

/-- Readings in a row that all succeed give what each of them gives. -/
theorem Reading.all_map_eq_ok {reading : ι → Reading α} {results : List α} {items : List ι}
    (each : List.Forall₂ (fun a item => reading item = .ok a) results items) :
    Reading.all (items.map reading) = .ok results := by
  induction each with
  | nil => rfl
  | cons head _ ih =>
    -- The first item is read, and then all others.
    rw [List.map_cons, Reading.all, head, ih]
    rfl

/-- Two readings side by side succeed just when both do. -/
theorem Reading.both_eq_ok_iff {β : Type} {first : Reading α} {second : Reading β} {pair : α × β} :
    first.both second = .ok pair ↔ first = .ok pair.1 ∧ second = .ok pair.2 := by
  cases first <;> cases second <;> simp [Reading.both, Prod.ext_iff]

/-- A mapped reading succeeds just when the reading does. -/
theorem Reading.map_eq_ok_iff {β : Type} {f : α → β} {reading : Reading α} {b : β} :
    Except.map f reading = .ok b ↔ ∃ a, reading = .ok a ∧ f a = b := by
  cases reading <;> simp [Except.map]

/-- A list of which each item reads is read item by item. -/
theorem readItems_eq_ok {results : List α} {items : List Value}
    (each : List.Forall₂ (fun a item => read item = .ok a) results items) :
    readItems read items = .ok results := by
  refine Reading.all_map_eq_ok ?_
  -- The place of an item matters to mismatches only.
  rw [← List.zipIdx_map_fst 0 items, List.forall₂_map_right_iff] at each
  refine each.imp fun a placed isRead => ?_
  obtain ⟨item, n⟩ := placed
  simp only [isRead, Reading.within]

/-- Only mappings have fields. -/
theorem exists_map_of_field? {member : Value} (found : value.field? name = some member) :
    ∃ entries, value = .map entries := by
  cases value with
  | map entries => exact ⟨entries, rfl⟩
  | atom | list | set => simp [Value.field?] at found

/-- A record has no field of a name that it does not list. -/
theorem field?_record_eq_none {fields : List (String × Value)} (absent : name ∉ fields.map (·.1)) :
    (Value.record fields).field? name = none := by
  rw [Value.record, Value.field?, Option.map_eq_none_iff, List.find?_eq_none]
  intro entry isEntry
  obtain ⟨field, isField, rfl⟩ := List.mem_map.mp isEntry
  rw [decide_eq_true_eq]
  -- An entry found under `name` would list `name` among the fields.
  exact fun same => absent (List.mem_map.mpr ⟨field, isField, Atom.text.inj same⟩)

/-- What has a field is a record, and is read as one. -/
theorem readRecord_of_field? {member : Value} (found : value.field? name = some member) :
    readRecord read value = read value := by
  obtain ⟨entries, rfl⟩ := exists_map_of_field? found
  rfl

/-- A required field that is there reads as its value does. -/
theorem required_of_field? {member : Value} {a : α} (found : value.field? name = some member)
    (isRead : read member = .ok a) : required read value name = .ok a := by
  simp only [required, found, isRead, Reading.within]

/-- An optional field that is there reads as its value does. -/
theorem optional_of_field? {member : Value} {a absent : α}
    (found : value.field? name = some member) (isRead : read member = .ok a) :
    optional read value name absent = .ok a := by
  simp only [optional, found, isRead, Reading.within]

/-- A member may be left out where it would say what is taken anyway. -/
theorem optional_of_getD {standard : Value} {a absent : α}
    (isStandard : read standard = .ok absent)
    (isRead : read ((value.field? name).getD standard) = .ok a) :
    optional read value name absent = .ok a := by
  rw [optional]
  -- An absent field and a present standard value are read alike, which is what `getD` says.
  cases found : value.field? name with
  | none => rwa [found, Option.getD_none, isStandard] at isRead
  | some member =>
    rw [found, Option.getD_some] at isRead
    simp only [isRead, Reading.within]

/-- No complaint is made about lines among items that can all be read. -/
theorem badShorthand?_eq_none {results : List (Dependence Value)} {items : List Value}
    (each : List.Forall₂ (fun a item => readDependence item = .ok a) results items) :
    badShorthand? items = none := by
  induction each with
  | nil => rfl
  | @cons _ item _ _ isRead _ ih =>
    match item with
    | .text line =>
      cases spelt : readShorthand line with
      | ok dependence => simpa only [badShorthand?, List.findSome?_cons, spelt] using ih
      | error rejection =>
        -- The line would not have been read.
        rw [readDependence, spelt] at isRead
        cases isRead
    | .null | .bool _ | .int _ | .float _ | .list _ | .set _ | .map _ => exact ih
    | .atom (.bytes _) | .atom (.date _) | .atom (.moment _) => exact ih

/-- The fields of a document that list what its problem is made of. -/
def listedFields : List String := ["operator_types", "operations", "dependences"]

/-- A document without these fields: the name of its problem, and how to schedule it. -/
def heading : Value → Value
  | .map entries => .map (entries.filter fun entry => entry.1 ∉ listedFields.map .text)
  | value => value

/-- The heading of a document has its fields except the three lists. -/
theorem field?_heading (document : Value) (name : String) :
    (heading document).field? name =
      if name ∈ listedFields then none else document.field? name := by
  cases document with
  | map entries =>
    -- An entry of the name is kept just when the name is not one of those that are left out.
    have isKept : ∀ entry : Atom × Value, entry.1 = .text name →
        (entry.1 ∉ listedFields.map .text ↔ name ∉ listedFields) := by
      intro entry isName
      rw [isName, List.mem_map_of_injective fun s t same => Atom.text.inj same]
    rw [heading, Value.field?, Value.field?, List.find?_filter]
    split
    · -- An entry of a listed name is not kept.
      rename_i isListed
      simp only [Option.map_eq_none_iff, List.find?_eq_none, decide_eq_true_eq, not_and]
      exact fun entry _ kept isName => (isKept entry isName).mp kept isListed
    · rename_i notListed
      congr 2
      funext entry
      simp only [decide_eq_true_eq, decide_eq_decide, and_iff_right_iff_imp]
      exact fun isName => (isKept entry isName).mpr notListed
  | atom | list | set => simp [heading, Value.field?]

/-- What a document says beside its lists is said by its heading. -/
theorem optional_heading (read : Value → Reading α) (document : Value) {name : String}
    (absent : α) (kept : name ∉ listedFields) :
    optional read (heading document) name absent = optional read document name absent := by
  rw [optional, optional, field?_heading, if_neg kept]

/-- The heading has the default for each of the three lists. -/
theorem optional_heading_listed (read : Value → Reading α) (document : Value) {name : String}
    (absent : α) (isListed : name ∈ listedFields) :
    optional read (heading document) name absent = .ok absent := by
  simp only [optional, field?_heading, if_pos isListed]

/-- In a document that loads, the dependences can be read. -/
theorem optional_dependences_of_parseProblem {document : Value} {loaded : LoadedProblem}
    (loads : parseProblem document = .ok loaded) :
    optional readDependences document "dependences" [] = .ok loaded.problem.dependences := by
  rw [parseProblem] at loads
  cases isRead : readProblem document with
  | error mismatches =>
    rw [isRead] at loads
    cases loads
  | ok result =>
    rw [isRead] at loads
    obtain rfl : result = loaded := Except.ok.inj loads
    -- The dependences are one of the six parts that are read side by side.
    simp only [readProblem, Reading.map_eq_ok_iff, Reading.both_eq_ok_iff] at isRead
    obtain ⟨parts, ⟨-, -, -, dependencesRead, -⟩, rfl⟩ := isRead
    exact dependencesRead

/-- No document loads in which a line among the dependences is refused. -/
theorem parseProblem_ne_ok_of_refused {document : Value} {items : List Value} {line : String}
    {rejection : Rejection} (found : document.field? "dependences" = some (.list items))
    (member : .text line ∈ items) (refused : readShorthand line = .error rejection)
    (loaded : LoadedProblem) : parseProblem document ≠ .ok loaded := by
  intro loads
  have isRead := optional_dependences_of_parseProblem loads
  -- One refused line is enough for the list as a whole to complain.
  have complains : badShorthand? items ≠ none := fun silent => by
    have ofLine := List.findSome?_eq_none_iff.mp silent _ member
    simp only [refused] at ofLine
    cases ofLine
  obtain ⟨complaint, complains⟩ := Option.ne_none_iff_exists'.mp complains
  simp only [Document.optional, found, readDependences, complains] at isRead
  cases isRead

end Document

open Document

/-- What the documents of a problem list: operator types without limits, by name and latency,
operations, by name and operator type, and dependences that can be written in one line. -/
structure Listing where
  types : List (String × Int)
  operations : List (String × String)
  dependences : List (Dependence Int)
  distinctTypes : (types.map (·.1)).Nodup
  distinctOperations : (operations.map (·.1)).Nodup
  spellable : ∀ dependence ∈ dependences, dependence.Spellable

/-- An operator type is written as a bare latency, or as a record that may say that there is no
limit. -/
inductive WritesType (latency : Int) : Value → Prop
  | bare : WritesType latency (.int latency)
  | record {value : Value} (isLatency : value.field? "latency" = some (.int latency))
      (noLimit : (value.field? "limit").getD .null = .null) : WritesType latency value

/-- An operation is written as a record of its name and its operator type. -/
structure WritesOperation (operation : String × String) (item : Value) : Prop where
  name : item.field? "name" = some (.text operation.1)
  type : item.field? "type" = some (.text operation.2)

/-- Operations are written as a mapping from names to operator types, or one by one. -/
inductive WritesOperations (operations : List (String × String)) : Value → Prop
  | mapping : WritesOperations operations
      (.map (operations.map fun operation => (.text operation.1, .text operation.2)))
  | list {items : List Value} (each : List.Forall₂ WritesOperation operations items) :
      WritesOperations operations (.list items)

/-- An end of a dependence is written under its preferred name, or under the other one alone. -/
inductive WritesEnd (item : Value) (preferred other : String) (operation : String) : Prop
  | preferred (found : item.field? preferred = some (.text operation))
  | other (absent : item.field? preferred = none)
      (found : item.field? other = some (.text operation))

/-- A dependence is written in one line, in which a distance of zero may be left out, or as a record
of its ends and its distance. -/
inductive WritesDependence (dependence : Dependence Int) : Value → Prop
  | arrow (now : dependence.distance = 0) :
      WritesDependence dependence
        (.text (dependence.source ++ " -> " ++ dependence.destination))
  | signed :
      WritesDependence dependence
        (.text (dependence.source ++ " -> " ++ dependence.destination ++ " @ " ++
          toString dependence.distance))
  | record {item : Value} (source : WritesEnd item "from" "source" dependence.source)
      (destination : WritesEnd item "to" "destination" dependence.destination)
      (distance : (item.field? "distance").getD (.int 0) = .int dependence.distance) :
      WritesDependence dependence item

/-- An endpoint is written in a record. -/
theorem WritesEnd.exists_map {item : Value} {preferred other operation : String}
    (writes : WritesEnd item preferred other operation) : ∃ entries, item = .map entries := by
  cases writes with
  | preferred found => exact exists_map_of_field? found
  | other _ found => exact exists_map_of_field? found

namespace Document

/-- An operator type in either notation reads as what it was written from. -/
theorem readOperatorType_of_writes {latency : Int} {value : Value}
    (writes : WritesType latency value) (name : String) :
    readOperatorType (.text name) value = .ok ⟨name, .int latency, none⟩ := by
  cases writes with
  | bare => rfl
  | record isLatency noLimit =>
    -- The latency has to be there, the limit may be absent.
    have latencyRead : required readInt value "latency" = .ok latency :=
      required_of_field? isLatency rfl
    have limitRead : optional (readOptional readInt) value "limit" none = .ok none :=
      optional_of_getD rfl (by rw [noLimit]; rfl)
    have isRead : readQuantities value = .ok (latency, none) := by
      rw [readQuantities, readRecord_of_field? isLatency, latencyRead, limitRead]
      rfl
    obtain ⟨entries, rfl⟩ := exists_map_of_field? isLatency
    simp only [readOperatorType, Value.toInt?, isRead]
    rfl

/-- An operation in either notation reads as what it was written from. -/
theorem readOperation_of_writes {operation : String × String} {item : Value}
    (writes : WritesOperation operation item) :
    readOperation item = .ok ⟨operation.1, operation.2, none⟩ := by
  -- Both fields are there, and are texts.
  have nameRead : required readText item "name" = .ok operation.1 :=
    required_of_field? writes.name rfl
  have typeRead : required readText item "type" = .ok operation.2 :=
    required_of_field? writes.type rfl
  rw [readOperation, readRecord_of_field? writes.name, nameRead, typeRead]
  rfl

/-- An endpoint under either of its names reads as what it was written from. -/
theorem readEndpoint_of_writes {item : Value} {preferred other operation : String}
    (writes : WritesEnd item preferred other operation) :
    readEndpoint item preferred other = .ok operation := by
  -- The preferred spelling is looked up first, so the other one may stand beside it.
  cases writes with
  | preferred found =>
    have isRead : required readText item preferred = .ok operation := required_of_field? found rfl
    rw [readEndpoint, found, isRead]
    rfl
  | other absent found =>
    have isRead : required readText item other = .ok operation := required_of_field? found rfl
    rw [readEndpoint, absent, found, isRead]
    rfl

/-- A dependence is read from each of its notations, unless it stands in one line and its distance
is too long a number. -/
theorem readDependence_of_writes {dependence : Dependence Int} {item : Value}
    (writes : WritesDependence dependence item) (spellable : dependence.Spellable)
    (legible : (∃ line, item = .text line) → dependence.distance < 10 ^ Text.digitLimit) :
    readDependence item = .ok dependence.values := by
  cases writes with
  | arrow now =>
    simp only [readDependence, readShorthand_arrow spellable.source spellable.destination,
      Dependence.values, now]
  -- Only a distance on a text line passes through the digit limit.
  | signed =>
    have short := legible ⟨_, rfl⟩
    simp only [readDependence, spellable.readShorthand_signed_eq, if_pos short, Dependence.values]
  | record source destination distance =>
    -- A record gives its distance as a number, whatever its length.
    have distanceRead : optional readInt item "distance" 0 = .ok dependence.distance :=
      optional_of_getD rfl (by rw [distance]; rfl)
    obtain ⟨entries, rfl⟩ := source.exists_map
    simp only [readDependence, readDependenceRecord, readRecord, readEndpoint_of_writes source,
      readEndpoint_of_writes destination, distanceRead]
    rfl

end Document

namespace Listing

variable {listing : Listing} {document : Value} {items : List Value}

/-- A document of a listing: under each of three names there is one of its notations; `items` are
those of the dependences. -/
structure Written (listing : Listing) (document : Value) (items : List Value) : Prop where
  types : ∃ entries, document.field? "operator_types" = some (.map entries) ∧
    List.Forall₂ (fun operatorType (entry : Atom × Value) =>
      entry.1 = .text operatorType.1 ∧ WritesType operatorType.2 entry.2) listing.types entries
  operations : ∃ value, document.field? "operations" = some value ∧
    WritesOperations listing.operations value
  dependences : document.field? "dependences" = some (.list items)
  each : List.Forall₂ WritesDependence listing.dependences items

/-- Every dependence that is written in one line has a distance that is short enough to be read. -/
def Legible (listing : Listing) (items : List Value) : Prop :=
  ∀ dependence line, (dependence, .text line) ∈ listing.dependences.zip items →
    dependence.distance < 10 ^ Text.digitLimit

/-- The operator types of a listing, as a document registers them. -/
def operatorTypes (listing : Listing) : List (OperatorType Value) :=
  listing.types.map fun operatorType => ⟨operatorType.1, .int operatorType.2, none⟩

/-- What was loaded from a heading, with all that is listed registered in its problem. -/
def fill (listing : Listing) (loaded : LoadedProblem) : LoadedProblem :=
  { loaded with
    problem :=
      { loaded.problem with
        operatorTypes := listing.operatorTypes
        operations := listing.operations.map fun operation => ⟨operation.1, operation.2, none⟩
        dependences := listing.dependences.map (·.values) } }

/-- No operator type takes the place of another one. -/
theorem latestByName_operatorTypes (listing : Listing) :
    latestByName listing.operatorTypes = listing.operatorTypes := by
  -- No type is listed twice, so no entry replaces an earlier one.
  have distinct : ((listing.operatorTypes.map fun operatorType =>
      (operatorType.name, operatorType)).map (·.1)).Nodup := by
    simpa [operatorTypes, Function.comp_def] using listing.distinctTypes
  rw [latestByName, NameTable.ofPairs_of_nodup distinct, List.map_map]
  exact List.map_id _

/-- The operator types of a document are those of its listing. -/
theorem Written.optional_operatorTypes (written : listing.Written document items) :
    optional readOperatorTypes document "operator_types" [] = .ok listing.operatorTypes := by
  obtain ⟨entries, found, each⟩ := written.types
  -- Each entry is read as the type that it writes.
  have isRead : List.Forall₂ (fun a (entry : Atom × Value) =>
      readOperatorType entry.1 entry.2 = .ok a) listing.operatorTypes entries := by
    rw [operatorTypes, List.forall₂_map_left_iff]
    refine each.imp fun operatorType entry writes => ?_
    rw [writes.1]
    exact readOperatorType_of_writes writes.2 operatorType.1
  refine optional_of_field? found ?_
  calc readOperatorTypes (.map entries)
      = (Reading.all (entries.map fun entry => readOperatorType entry.1 entry.2)).map
          latestByName := rfl
    _ = .ok (latestByName listing.operatorTypes) := by
      rw [Reading.all_map_eq_ok isRead]
      rfl
    _ = .ok listing.operatorTypes := by rw [listing.latestByName_operatorTypes]

/-- Written operations read as the operations of the listing, without starts. -/
theorem readItems_operations {operations : List (String × String)}
    (each : List.Forall₂ WritesOperation operations items) :
    readItems readOperation items =
      .ok (operations.map fun operation => ⟨operation.1, operation.2, none⟩) := by
  refine readItems_eq_ok ?_
  rw [List.forall₂_map_left_iff]
  exact each.imp fun operation item writes => readOperation_of_writes writes

/-- The operations of a document are those of its listing. -/
theorem Written.optional_operations (written : listing.Written document items) :
    optional readOperations document "operations" [] =
      .ok (listing.operations.map fun operation => ⟨operation.1, operation.2, none⟩) := by
  obtain ⟨value, found, writes⟩ := written.operations
  refine optional_of_field? found ?_
  cases writes with
  | mapping =>
    -- The mapping stands for the records of its entries.
    rw [readOperations, List.map_map]
    refine readItems_operations ?_
    rw [List.forall₂_map_right_iff]
    exact List.forall₂_same.mpr fun operation _ => ⟨rfl, rfl⟩
  | list each => exact readItems_operations each

/-- The dependences of a legible document are those of its listing. -/
theorem Written.optional_dependences (written : listing.Written document items)
    (legible : listing.Legible items) :
    optional readDependences document "dependences" [] =
      .ok (listing.dependences.map (·.values)) := by
  have each : List.Forall₂ (fun a item => readDependence item = .ok a)
      (listing.dependences.map (·.values)) items := by
    obtain ⟨lengths, writes⟩ := List.forall₂_iff_zip.mp written.each
    rw [List.forall₂_map_left_iff]
    refine List.forall₂_iff_zip.mpr ⟨lengths, fun {dependence item} member => ?_⟩
    refine readDependence_of_writes (writes member)
      (listing.spellable dependence (List.of_mem_zip member).1) ?_
    rintro ⟨line, rfl⟩
    exact legible dependence line member
  refine optional_of_field? written.dependences ?_
  rw [readDependences, badShorthand?_eq_none each]
  exact readItems_eq_ok each

/-- The problem that a document loads to is that of its heading, with all that is listed registered
in it. -/
theorem Written.parseProblem_eq (written : listing.Written document items)
    (legible : listing.Legible items) :
    parseProblem document = (parseProblem (heading document)).map listing.fill := by
  -- What is not listed is read from the heading as it is from the document.
  have name := optional_heading readText document Problem.defaultName
    (show "name" ∉ listedFields by decide)
  have last := optional_heading (readOptional readText) document none
    (show "last_operation" ∉ listedFields by decide)
  have settings := optional_heading (readOptional readSettings) document none
    (show "scheduler" ∉ listedFields by decide)
  -- The lists are not in the heading, and are read as empty ones.
  have noTypes := optional_heading_listed readOperatorTypes document []
    (show "operator_types" ∈ listedFields by decide)
  have noOperations := optional_heading_listed readOperations document []
    (show "operations" ∈ listedFields by decide)
  have noDependences := optional_heading_listed readDependences document []
    (show "dependences" ∈ listedFields by decide)
  simp only [parseProblem, readProblem, written.optional_operatorTypes,
    written.optional_operations, written.optional_dependences legible, name, last, settings,
    noTypes, noOperations, noDependences]
  -- What is said beside the lists is read in the same way on both sides, or fails on both.
  cases optional readText document "name" Problem.defaultName <;>
    cases optional (readOptional readText) document "last_operation" none <;>
    cases optional (readOptional readSettings) document "scheduler" none <;> rfl

/-- Where nothing is said beside the lists, a document loads with the name and the settings that are
taken then. -/
theorem Written.parseProblem_bare (written : listing.Written document items)
    (legible : listing.Legible items) (bare : ∀ name ∉ listedFields, document.field? name = none) :
    parseProblem document =
      .ok (listing.fill ⟨.empty Problem.defaultName, SchedulingConfig.default⟩) := by
  -- Nothing but the listed fields is said, and `heading` drops those.
  have unsaid : ∀ name, (heading document).field? name = none := fun name => by
    rw [field?_heading]
    split
    · rfl
    · exact bare name ‹_›
  -- A heading without any field is read as an empty problem.
  have loads : parseProblem (heading document) =
      .ok ⟨.empty Problem.defaultName, SchedulingConfig.default⟩ := by
    simp only [parseProblem, readProblem, Document.optional, unsaid]
    rfl
  rw [written.parseProblem_eq legible, loads]
  rfl

end Listing

/-- Whichever notation is chosen for each of its parts, a document of a listing loads as its heading
does, with exactly the listed parts in their order; so documents with one heading load alike. -/
theorem parseProblem_of_written (listing : Listing) (document : Value) (items : List Value)
    (written : listing.Written document items) (legible : listing.Legible items) :
    parseProblem document = (parseProblem (heading document)).map listing.fill ∧
      ((∀ name ∉ listedFields, document.field? name = none) → parseProblem document =
        .ok (listing.fill ⟨.empty Problem.defaultName, SchedulingConfig.default⟩)) ∧
      ∀ other otherItems, listing.Written other otherItems → listing.Legible otherItems →
        heading other = heading document → parseProblem other = parseProblem document := by
  have loads := written.parseProblem_eq legible
  refine ⟨loads, written.parseProblem_bare legible, ?_⟩
  intro other otherItems otherWritten otherLegible same
  -- Both documents have one heading, and the heading is all that the right side reads.
  rw [loads, ← same]
  exact otherWritten.parseProblem_eq otherLegible

/-- Two operations, each of which waits for the other one in two ways. -/
def Listing.loop : Listing where
  types := [("add", 1), ("mul", 2)]
  operations := [("x", "add"), ("y", "mul")]
  dependences := [⟨"x", "y", 0⟩, ⟨"y", "x", 3⟩, ⟨"y", "x", 1⟩]
  distinctTypes := by decide
  distinctOperations := by decide
  spellable := by
    -- Neither name is empty or has white space in it.
    have isWord : Word "x".toList ∧ Word "y".toList := by
      exact ⟨⟨by decide, by decide⟩, ⟨by decide, by decide⟩⟩
    simp only [List.forall_mem_cons]
    exact ⟨⟨isWord.1, isWord.2, by decide⟩, ⟨isWord.2, isWord.1, by decide⟩,
      ⟨isWord.2, isWord.1, by decide⟩, by simp⟩

/-- Its dependences in three notations. -/
def loopItems : List Value :=
  [.text "x -> y",
    .record [("from", .text "y"), ("to", .text "x"), ("distance", .int 3)],
    .record [("source", .text "y"), ("destination", .text "x"), ("distance", .int 1)]]

/-- A document that says how to schedule it as well. -/
def loopDocument : Value :=
  .record [("name", .text "loop"),
    ("operator_types", .record [("add", .int 1), ("mul", .record [("latency", .int 2)])]),
    ("operations", .record [("x", .text "add"), ("y", .text "mul")]),
    ("dependences", .list loopItems),
    ("scheduler", .record [("variant", .text "cyclic")])]

/-- The loop is parsed to its listing although its dependences mix both notations. -/
theorem parseProblem_of_written_loop :
    Listing.loop.Written loopDocument loopItems ∧ Listing.loop.Legible loopItems ∧
      parseProblem loopDocument = .ok
        { problem :=
            { name := "loop"
              operatorTypes := [⟨"add", .int 1, none⟩, ⟨"mul", .int 2, none⟩]
              operations := [⟨"x", "add", none⟩, ⟨"y", "mul", none⟩]
              dependences := [⟨"x", "y", .int 0⟩, ⟨"y", "x", .int 3⟩, ⟨"y", "x", .int 1⟩]
              interval := none }
          config := { SchedulingConfig.default with variant := some .cyclic } } := by
  -- Each of the three notations of a dependence occurs once.
  have written : Listing.loop.Written loopDocument loopItems := by
    refine ⟨⟨_, rfl, ?_⟩, ⟨_, rfl, .mapping⟩, rfl, ?_⟩
    · exact .cons ⟨rfl, .bare⟩ (.cons ⟨rfl, .record rfl rfl⟩ .nil)
    · exact .cons (.arrow rfl) (.cons (.record (.preferred rfl) (.preferred rfl) rfl)
        (.cons (.record (.other rfl rfl) (.other rfl rfl) rfl) .nil))
  have legible : Listing.loop.Legible loopItems := by
    intro dependence line member
    -- Only the first dependence stands in one line.
    simp only [Listing.loop, loopItems, List.zip_cons_cons, List.zip_nil_right, List.mem_cons,
      Prod.mk.injEq, List.not_mem_nil, or_false] at member
    obtain ⟨rfl, -⟩ | ⟨-, different⟩ | ⟨-, different⟩ := member
    · exact Int.pow_pos (by decide)
    · cases different
    · cases different
  obtain ⟨loads, -, -⟩ :=
    parseProblem_of_written Listing.loop loopDocument loopItems written legible
  exact ⟨written, legible, loads.trans rfl⟩

/-- One dependence, over more iterations than a line can say. -/
def Listing.overlong : Listing where
  types := [("add", 1)]
  operations := [("a", "add"), ("b", "add")]
  dependences := [.overlong]
  distinctTypes := by decide
  distinctOperations := by decide
  spellable := by
    rw [List.forall_mem_singleton]
    exact Dependence.spellable_overlong

/-- A document of it, by how the dependence is written. -/
def overlongDocument (item : Value) : Value :=
  .record [("operator_types", .record [("add", .int 1)]),
    ("operations", .record [("a", .text "add"), ("b", .text "add")]),
    ("dependences", .list [item])]

/-- The dependence in one line. -/
def overlongLine : String :=
  Dependence.overlong.source ++ " -> " ++ Dependence.overlong.destination ++ " @ " ++
    toString Dependence.overlong.distance

/-- The dependence as a record. -/
def overlongRecord : Value :=
  .record [("from", .text "a"), ("to", .text "b"), ("distance", .int Dependence.overlong.distance)]

/-- A document with the overlong dependence, however written, is one of its listing. -/
theorem Listing.written_overlong {item : Value}
    (writes : WritesDependence Dependence.overlong item) :
    Listing.overlong.Written (overlongDocument item) [item] := by
  refine ⟨⟨_, rfl, .cons ⟨rfl, .bare⟩ .nil⟩, ⟨_, rfl, .mapping⟩, rfl, .cons writes .nil⟩

/-- The notation matters to a distance that is too long a number: a record of it loads, a line does
not. -/
theorem parseProblem_of_written_overlong :
    Listing.overlong.Written (overlongDocument (.text overlongLine)) [.text overlongLine] ∧
      Listing.overlong.Written (overlongDocument overlongRecord) [overlongRecord] ∧
      parseProblem (overlongDocument overlongRecord) =
        .ok (Listing.overlong.fill ⟨.empty Problem.defaultName, SchedulingConfig.default⟩) ∧
      ∀ loaded, parseProblem (overlongDocument (.text overlongLine)) ≠ .ok loaded := by
  have asLine := Listing.written_overlong .signed
  have asRecord : Listing.overlong.Written (overlongDocument overlongRecord) [overlongRecord] :=
    Listing.written_overlong (.record (.preferred rfl) (.preferred rfl) rfl)
  have legible : Listing.overlong.Legible [overlongRecord] := by
    -- The only item is a record, so there is no line to be legible.
    intro dependence line member
    obtain ⟨-, different⟩ := Prod.mk.inj (List.mem_singleton.mp member)
    cases different
  -- The line is refused for its digits, not for its form.
  have refused : readShorthand overlongLine =
      .error (.longNumber (toString Dependence.overlong.distance).length) := by
    rw [overlongLine, Dependence.spellable_overlong.readShorthand_signed_eq,
      if_neg Dependence.not_short_overlong]
  refine ⟨asLine, asRecord, ?_, ?_⟩
  · exact asRecord.parseProblem_bare legible fun name unlisted => field?_record_eq_none unlisted
  · exact parseProblem_ne_ok_of_refused rfl (List.mem_singleton_self _) refused

end CycleSchedule
