import CycleSchedule.Document.Settings
import CycleSchedule.Document.Shorthand

/-! Reading problem documents: a problem together with the settings to schedule it. -/

namespace CycleSchedule.Document

/-- A problem and the settings that its document gives for scheduling it. -/
structure LoadedProblem where
  problem : Problem Value
  config : SchedulingConfig
deriving Repr

/-- How a key stands in a path; a number that does not fit in a word stands as text. -/
def keyStep : Atom → PathStep
  | .text name => .field name
  -- A number too large for an index stands as a name.
  | .int n => if fitsWord n then .index n else .field (toString n)
  | .bool b => .index (if b then 1 else 0)
  | key => .field key.literal.spelled

/-- Reads the key of an operator type, which names it. -/
def readTypeName (key : Atom) : Reading String :=
  -- A key is blamed under its own name, as the key of the mapping.
  ((readText (.atom key)).within (.field "[key]")).within (keyStep key)

/-- Reads the members of an operator type. -/
def readQuantities : Value → Reading (Int × Option Int) :=
  readRecord fun value =>
    (required readInt value "latency").both
      (optional (readOptional readInt) value "limit" none)

/-- Reads an operator type, or a latency alone. -/
def readOperatorType (key : Atom) (value : Value) : Reading (OperatorType Value) :=
  let quantities : Reading (Int × Option Int) := match value.toInt? with
    -- A bare number is a latency, and such a type has no limit.
    | some latency => .ok (latency, none)
    | none => readQuantities value
  ((readTypeName key).both (quantities.within (keyStep key))).map fun (name, latency, limit) =>
    ⟨name, .int latency, limit.map .int⟩

/-- The operator types without those that a later one of the same name takes the place of. -/
def latestByName (operatorTypes : List (OperatorType Value)) : List (OperatorType Value) :=
  -- Keys of two kinds may spell one name.
  (NameTable.ofPairs (operatorTypes.map fun operatorType => (operatorType.name, operatorType))).map
    (·.2)

/-- Reads the operator types, by name. -/
def readOperatorTypes : Value → Reading (List (OperatorType Value))
  -- Nothing at all stands for no types.
  | .null => .ok []
  | .map entries =>
    (Reading.all (entries.map fun (key, value) => readOperatorType key value)).map latestByName
  | _ => .unexpected .mapping

/-- Reads an operation. -/
def readOperation : Value → Reading Operation :=
  readRecord fun value =>
    ((required readText value "name").both (required readText value "type")).map
      fun (name, operatorType) => ⟨name, operatorType, none⟩

/-- Reads the items of a list, each placed by its index. -/
def readItems {α : Type} (read : Value → Reading α) (items : List Value) : Reading (List α) :=
  -- Every item is read, and a mismatch is placed by the index of its item.
  .all (items.zipIdx.map fun (item, n) => (read item).within (.index n))

/-- Reads the operations, given in a list or as a mapping from names to operator types. -/
def readOperations : Value → Reading (List Operation)
  | .null => .ok []
  | .list items => readItems readOperation items
  -- A set has its items in order, as a list has.
  | .set items => readItems readOperation (items.map .atom)
  | .map entries => readItems readOperation
    (entries.map fun (key, value) => .record [("name", .atom key), ("type", value)])
  | _ => .unexpected .list

/-- Reads an end of a dependence, which has a preferred name and another one. -/
def readEndpoint (value : Value) (preferred other : String) : Reading String :=
  -- The preferred name counts unless only the other one is there.
  if (value.field? preferred).isNone && (value.field? other).isSome then
    required readText value other
  else required readText value preferred

/-- Reads a dependence from its members. -/
def readDependenceRecord : Value → Reading (Dependence Value) :=
  readRecord fun value =>
    ((readEndpoint value "from" "source").both
      ((readEndpoint value "to" "destination").both
        (optional readInt value "distance" 0))).map
      fun (source, destination, distance) => ⟨source, destination, .int distance⟩

/-- Reads a dependence, which may be written in one line. -/
def readDependence : Value → Reading (Dependence Value)
  | .text s => match readShorthand s with
    | .ok dependence => .ok ⟨dependence.source, dependence.destination, .int dependence.distance⟩
    -- The complaint is the one that the line itself gives rise to.
    | .error rejection => .unexpected (.shorthand rejection.message.spelled)
  | value => readDependenceRecord value

/-- What is said of the first text among dependences that does not spell one. -/
def badShorthand? (items : List Value) : Option String :=
  items.findSome? fun
    | .text s => match readShorthand s with
      | .ok _ => none
      | .error rejection => some rejection.message.spelled
    | _ => none

/-- Reads the dependences; a line that does not spell one hides everything else. -/
def readDependences : Value → Reading (List (Dependence Value))
  | .null => .ok []
  | .list items => match badShorthand? items with
    | some complaint => .unexpected (.shorthand complaint)
    | none => readItems readDependence items
  -- A line is only read where it has a place in a list.
  | .set items => readItems readDependenceRecord (items.map .atom)
  | _ => .unexpected .list

/-- Reads a problem document; where the settings name no last operation, that of the problem counts.
-/
def readProblem (value : Value) : Reading LoadedProblem :=
  let name := optional readText value "name" Problem.defaultName
  let operatorTypes := optional readOperatorTypes value "operator_types" []
  let operations := optional readOperations value "operations" []
  let dependences := optional readDependences value "dependences" []
  let last := optional (readOptional readText) value "last_operation" none
  let settings := optional (readOptional readSettings) value "scheduler" none
  -- All fields are read, so every mismatch is told of and not only the first.
  (name.both (operatorTypes.both (operations.both (dependences.both (last.both settings))))).map
    fun (name, operatorTypes, operations, dependences, last, settings) =>
      -- The settings say what is last before the problem does.
      let config := settings.getD SchedulingConfig.default
      { problem := ⟨name, operatorTypes, operations, dependences, none⟩
        config := { config with last := config.last.or last } }

end CycleSchedule.Document
