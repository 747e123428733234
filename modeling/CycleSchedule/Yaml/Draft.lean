import CycleSchedule.NameTable
import CycleSchedule.Yaml.Atom
import CycleSchedule.Yaml.Node

/-! Drafts of values: what the nodes of a document stand for, with every fault in its place. The
parts of collections are only looked at after all collections that were met before. -/

namespace CycleSchedule.Yaml

/-- What a node stands for: an atom or a fault, or a collection. The parts of a collection are
drafts in the order in which they are made, a fault of the collection itself among them. -/
inductive Draft where
  | atom (outcome : Except Fault Atom)
  | collection (place : Nat) (value : Value) (parts : List Draft)

namespace Draft

/-- The draft of what cannot be made. -/
def fault (fault : Fault) : Draft := .atom (.error fault)

/-- The value of a draft without faults. -/
def value : Draft → Value
  | .atom (.ok a) => .atom a
  -- A fault has no value; this one is never looked at.
  | .atom (.error _) => .null
  | .collection _ value _ => value

/-- A draft as the key of a mapping, which no collection can be. -/
def asKey : Draft → Draft
  -- A collection cannot be told from another one as a key.
  | .collection _ _ _ => .fault .notWellFormed
  | draft => draft

/-- The draft of a key with the value under it. -/
abbrev Entry := Draft × Draft

/-- The parts that entries make. -/
def ofEntries (entries : List Entry) : List Draft :=
  entries.flatMap fun entry => [entry.1.asKey, entry.2]

/-- The mapping that entries without faults make. -/
def mappingOf (entries : List Entry) : Value :=
  -- A key that is no atom is a fault of its own, so it is left out here.
  .ofEntries (entries.filterMap fun entry => match entry.1.value with
    | .atom key => some (key, entry.2.value)
    | _ => none)

/-- The set of the keys of a mapping. -/
def setOf : Value → Value
  | .map entries => .set (entries.map (·.1))
  | _ => .set []

/-- Makes drafts from a queue, the parts of a collection after all that is in the queue; a
collection is made once, and the fuel is the number of them and of their parts. -/
def inspect : Nat → List Nat → List Draft → Except Fault Unit
  | 0, _, _ => .ok ()
  | _ + 1, _, [] => .ok ()
  | fuel + 1, made, .atom outcome :: queue => do
    let _ ← outcome
    -- A fault ends the whole reading, in the order in which the drafts are made.
    inspect fuel made queue
  | fuel + 1, made, .collection place _ parts :: queue =>
    -- A collection may hold itself, and is only looked into once.
    if made.contains place then inspect fuel made queue
    else inspect fuel (place :: made) (queue ++ parts)

end Draft

/-- What the sorts of nodes can be made into. -/
inductive Shape where
  | atom (kind : Kind)
  | list
  | mapping
  | set
  | pairs
  | nothing
deriving DecidableEq, Repr

/-- The shapes that tags of the language name. -/
def coreShapes : List (String × Shape) :=
  [("null", .atom .null), ("bool", .atom .bool), ("int", .atom .int), ("float", .atom .float),
    ("binary", .atom .binary), ("timestamp", .atom .timestamp), ("str", .atom .text),
    ("seq", .list), ("map", .mapping), ("set", .set), ("omap", .pairs), ("pairs", .pairs),
    ("merge", .atom .merge), ("value", .atom .value)]

/-- The shape that a tag names, or else the one that goes without a tag. -/
def shapeOf (tag : Option String) (untagged : Shape) : Shape :=
  match tag with
  | none => untagged
  -- The tag of one mark alone says nothing but that a plain form counts.
  | some "!" => untagged
  | some tag => match tag.dropPrefix? coreTag with
    | some name => (coreShapes.lookup name.toString).getD .nothing
    | none => .nothing

/-- The shape of a scalar: of a plain one without a tag, or of any with the tag `!`, by its form. -/
def scalarShape (tag : Option String) (plain : Bool) (text : String) : Shape :=
  match tag with
  -- Without a tag only a plain scalar is taken by its form.
  | none => .atom (if plain then kindOf text else .text)
  | tag => shapeOf tag (.atom (kindOf text))

/-- All that a node can be used for: its draft, its text where a scalar is asked for, and, for a
mapping, its entries as they are written and with others taken in, and what it gives to a mapping
that takes it in. -/
structure Reading where
  shape : Shape
  draft : Draft
  text : Except Fault String
  written : Option (List Draft.Entry)
  entries : Option (List Draft.Entry)
  given : Option (List Draft.Entry)

/-- The reading of a node inside itself, before anything is known of it. -/
def Reading.unknown : Reading :=
  ⟨.nothing, .atom (.ok .null), .error .endless, none, some [], some []⟩

/-- The readings of anchored nodes. -/
abbrev Readings := NameTable Reading

/-- The atom that a node with a text is to be. -/
def atomDraft (kind : Kind) (isScalar : Bool) (text : Except Fault String) : Draft :=
  .atom do
    let text ← text
    -- A date cannot be made of the value of a mapping.
    if kind = .timestamp && !isScalar then throw .nestedTimestamp
    atomOf kind text

/-- The reading of a scalar. -/
def scalarReading (place : Nat) (tag : Option String) (plain : Bool) (text : String) : Reading :=
  let shape := scalarShape tag plain text
  -- A collection has parts, which a scalar cannot give.
  let bare (value : Value) : Draft := .collection place value [.fault .notWellFormed]
  let draft : Draft := match shape with
    | .atom kind => atomDraft kind true (.ok text)
    | .list => bare (.list [])
    | .mapping => bare (.map [])
    | .set => bare (.set [])
    | .pairs => bare (.list [])
    | .nothing => .fault .notWellFormed
  ⟨shape, draft, .ok text, none, none, none⟩

/-- The only entry of a node, as a part of ordered pairs. -/
def Reading.pair? (reading : Reading) : Option Draft.Entry :=
  match reading.written with
  -- A part of ordered pairs is a mapping of one entry.
  | some [entry] => some entry
  | _ => none

/-- The parts that ordered pairs make of items. -/
def pairParts (items : List Reading) : List Draft :=
  items.flatMap fun item => match item.pair? with
    | some (key, value) => [key, value]
    | none => [.fault .notWellFormed]

/-- The list of ordered pairs without faults. -/
def pairsOf (items : List Reading) : Value :=
  .list (items.filterMap fun item => item.pair?.map fun entry =>
    .list [entry.1.value, entry.2.value])

/-- The reading of a sequence. -/
def sequenceReading (place : Nat) (tag : Option String) (items : List Reading) : Reading :=
  let shape := shapeOf tag .list
  let drafts := items.map (·.draft)
  let draft : Draft := match shape with
    | .atom kind => atomDraft kind false (.error .notWellFormed)
    | .list => .collection place (.list (drafts.map Draft.value)) drafts
    | .mapping => .collection place (.map []) [.fault .notWellFormed]
    | .set => .collection place (.set []) [.fault .notWellFormed]
    | .pairs => .collection place (pairsOf items) (pairParts items)
    | .nothing => .fault .notWellFormed
  -- Of several mappings that are taken in, the first one prevails, so it goes last.
  let given := (items.reverse.mapM Reading.entries).map List.flatten
  -- A sequence has no text, and no entries of its own.
  ⟨shape, draft, .error .notWellFormed, none, none, given⟩

/-- An entry of a mapping by the readings of its parts. -/
structure EntryReading where
  key : Reading
  value : Reading

/-- Whether an entry takes another mapping in. -/
def EntryReading.isMerge (entry : EntryReading) : Bool := entry.key.shape = .atom .merge

/-- Whether an entry has the value of the mapping where a scalar is asked for. -/
def EntryReading.isValue (entry : EntryReading) : Bool := entry.key.shape = .atom .value

/-- An entry of the mapping itself; the key for its value is read as a text. -/
def EntryReading.own (entry : EntryReading) : Draft.Entry :=
  (if entry.isValue then .atom (entry.key.text.map .text) else entry.key.draft, entry.value.draft)

/-- The entries of a mapping: those that it takes in, then its own. -/
def flattened? (entries : List EntryReading) : Option (List Draft.Entry) := do
  let taken ← (entries.filter (·.isMerge)).mapM (·.value.given)
  -- The entries that are taken in come first, so that the own ones replace them.
  return taken.flatten ++ (entries.filter (!·.isMerge)).map (·.own)

/-- The reading of a mapping. -/
def mappingReading (place : Nat) (tag : Option String) (entries : List EntryReading) : Reading :=
  let shape := shapeOf tag .mapping
  -- The value of a mapping takes the place of its text.
  let text := match entries.find? (·.isValue) with
    | some entry => entry.value.text
    | none => .error .notWellFormed
  -- Entries that cannot be taken in make the mapping a fault.
  let flattened := flattened? entries
  let parts := match flattened with
    | some entries => Draft.ofEntries entries
    | none => [.fault .notWellFormed]
  let value := Draft.mappingOf (flattened.getD [])
  let draft : Draft := match shape with
    | .atom kind => atomDraft kind false text
    | .list => .collection place (.list []) [.fault .notWellFormed]
    | .mapping => .collection place value parts
    | .set => .collection place (Draft.setOf value) parts
    | .pairs => .collection place (.list []) [.fault .notWellFormed]
    | .nothing => .fault .notWellFormed
  -- As parts of ordered pairs, entries stand as they are written.
  ⟨shape, draft, text, some (entries.map fun entry => (entry.key.draft, entry.value.draft)),
    flattened, flattened⟩

mutual

/-- The reading of a node, and the readings of the anchors up to its end. A node inside itself is
read as `before` tells. -/
def readNode (before known : Readings) : Node → Reading × Readings
  | .scalar place tag plain text => (scalarReading place tag plain text, known)
  | .sequence place tag items =>
    let (items, known) := readItems before known items
    (sequenceReading place tag items, known)
  | .mapping place tag entries =>
    let (entries, known) := readEntries before known entries
    (mappingReading place tag entries, known)
  -- An alias is known from this document or from before it.
  | .alias name => (((known.get? name).or (before.get? name)).getD .unknown, known)
  | .anchored name node =>
    -- The name is known from the end of its node on.
    let (reading, known) := readNode before known node
    (reading, known.put name reading)

/-- The readings of items. -/
def readItems (before known : Readings) : List Node → List Reading × Readings
  | [] => ([], known)
  | node :: nodes =>
    let (reading, known) := readNode before known node
    let (readings, known) := readItems before known nodes
    (reading :: readings, known)

/-- The readings of entries. -/
def readEntries (before known : Readings) : List (Node × Node) → List EntryReading × Readings
  | [] => ([], known)
  | (key, value) :: entries =>
    let (key, known) := readNode before known key
    let (value, known) := readNode before known value
    let (readings, known) := readEntries before known entries
    (⟨key, value⟩ :: readings, known)

end

/-- The reading of a node after a number of rounds, each of which sees one level more of nodes
inside themselves. -/
def readRounds (node : Node) : Nat → Readings → Reading
  | 0, before => (readNode before [] node).1
  | rounds + 1, before => readRounds node rounds (readNode before [] node).2

end CycleSchedule.Yaml
