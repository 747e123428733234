import CycleSchedule.Yaml.Token.Lexer

/-! The tree of nodes that the tokens of a document make. -/

namespace CycleSchedule.Yaml

/-- A node of a document; its place tells it from all others of more than a text. Tags are kept as
they are meant, not as they are written. -/
inductive Node where
  | scalar (place : Nat) (tag : Option String) (plain : Bool) (text : String)
  | sequence (place : Nat) (tag : Option String) (items : List Node)
  | mapping (place : Nat) (tag : Option String) (entries : List (Node × Node))
  | alias (name : String)
  | anchored (name : String) (node : Node)
deriving Repr

/-- The node where there is nothing. -/
def Node.empty : Node := .scalar 0 none true ""

/-- What handles of tags stand for. -/
abbrev Handles := List (String × String)

/-- The tags of the language itself begin with this. -/
def coreTag : String := "tag:yaml.org,2002:"

/-- The handles that every document knows. -/
def defaultHandles : Handles := [("!", "!"), ("!!", coreTag)]

/-- The tag that is meant, if its handle is known. -/
def WrittenTag.resolve? (handles : Handles) (tag : WrittenTag) : Option String :=
  -- A tag that is written out in full means itself.
  match tag.handle with
  | none => some tag.suffix
  | some handle => (handles.lookup handle).map (· ++ tag.suffix)

/-- What may come before a node: an anchor and a tag, in either order. -/
structure Properties where
  anchor : Option String
  tag : Option String

/-- The node with an anchor if there is one. -/
def Properties.attach (properties : Properties) (node : Node) : Node :=
  -- An anchor is kept around its node, so that aliases can find it.
  match properties.anchor with
  | some name => .anchored name node
  | none => node

/-- Why tokens cannot go on as they do. -/
def unexpected {α : Type} : List Token → Except Fault α
  -- A token that could not be read is the reason, whatever was expected.
  | .unreadable fault :: _ => .error fault
  | _ => .error .notWellFormed

/-- The properties at the head of tokens, and what follows them. -/
def properties (handles : Handles) : List Token → Except Fault (Properties × List Token)
  -- An anchor and a tag may stand in either order, each at most once.
  | .anchor name :: .tag tag :: rest => do
    return (⟨some name, some (← wellFormed (tag.resolve? handles))⟩, rest)
  | .tag tag :: .anchor name :: rest => do
    return (⟨some name, some (← wellFormed (tag.resolve? handles))⟩, rest)
  | .anchor name :: rest => .ok (⟨some name, none⟩, rest)
  | .tag tag :: rest => do return (⟨none, some (← wellFormed (tag.resolve? handles))⟩, rest)
  | rest => .ok (⟨none, none⟩, rest)

/-- Whether a token ends an entry of a block mapping before it has begun. -/
def endsBlockPart : List Token → Bool
  | .key :: _ => true
  | .value :: _ => true
  | .blockEnd :: _ => true
  | _ => false

/-- Whether a token ends an item of a block sequence before it has begun. -/
def endsBlockItem : List Token → Bool
  | .blockEntry :: _ => true
  | .blockEnd :: _ => true
  | _ => false

/-- Whether a token ends an item of a sequence without an indentation of its own. -/
def endsLooseItem (tokens : List Token) : Bool :=
  endsBlockPart tokens || endsBlockItem tokens

/-- Whether a token ends a value between brackets or braces before it has begun. -/
def endsFlowValue (closing : Token) : List Token → Bool
  | [] => false
  -- A comma or the end leaves out what was to come before it.
  | token :: _ => token = .comma || token = closing

/-- Whether a token ends a key between brackets or braces before it has begun. -/
def endsFlowKey (closing : Token) : List Token → Bool
  | .value :: _ => true
  | tokens => endsFlowValue closing tokens

/-- What follows the separator before a part between brackets or braces; there is none before the
first part. -/
def afterComma (first : Bool) (tokens : List Token) : Except Fault (List Token) :=
  match first, tokens with
  | true, rest => .ok rest
  | false, .comma :: rest => .ok rest
  | false, rest => unexpected rest

/-- The node that properties alone make; without any there is no node. -/
def emptyNode (properties : Properties) (rest : List Token) : Except Fault (Node × List Token) :=
  -- A tag or an anchor alone stands for an empty scalar.
  if properties.anchor.isNone && properties.tag.isNone then unexpected rest
  else
    let node := Node.scalar rest.length properties.tag properties.tag.isNone ""
    .ok (properties.attach node, rest)

mutual

/-- A node, and what follows it. Blocks can only stand where blocks are allowed, and sequences
without an indentation of their own only as parts of a block mapping. -/
def node (handles : Handles) (block loose : Bool) :
    Nat → List Token → Except Fault (Node × List Token)
  | 0, rest => unexpected rest
  | _ + 1, .alias name :: rest => .ok (.alias name, rest)
  | fuel + 1, tokens => do
    let (properties, rest) ← properties handles tokens
    let tag := properties.tag
    let place := rest.length
    match rest with
    -- A scalar ends the node at once; all else is a collection.
    | .scalar plain text :: rest => return (properties.attach (.scalar place tag plain text), rest)
    | .openBracket :: rest => do
      let (items, rest) ← flowItems handles true fuel rest
      return (properties.attach (.sequence place tag items), rest)
    | .openBrace :: rest => do
      let (entries, rest) ← flowEntries handles true fuel rest
      return (properties.attach (.mapping place tag entries), rest)
    -- The entry itself is left for the sequence, which has no token of its own.
    | .blockEntry :: _ =>
      if loose then do
        let (items, rest) ← looseItems handles fuel rest
        return (properties.attach (.sequence place tag items), rest)
      else emptyNode properties rest
    | .blockSequence :: after =>
      if block then do
        let (items, rest) ← blockItems handles fuel after
        return (properties.attach (.sequence place tag items), rest)
      else emptyNode properties rest
    | .blockMapping :: after =>
      if block then do
        let (entries, rest) ← blockEntries handles fuel after
        return (properties.attach (.mapping place tag entries), rest)
      else emptyNode properties rest
    | _ => emptyNode properties rest

/-- The items of a block sequence up to its end. -/
def blockItems (handles : Handles) : Nat → List Token → Except Fault (List Node × List Token)
  | 0, rest => unexpected rest
  | fuel + 1, .blockEntry :: rest => do
    -- An entry with nothing behind its dash is an empty item.
    let (item, rest) ← if endsBlockItem rest then .ok (.empty, rest)
      else node handles true false fuel rest
    let (items, rest) ← blockItems handles fuel rest
    return (item :: items, rest)
  | _ + 1, .blockEnd :: rest => .ok ([], rest)
  | _ + 1, rest => unexpected rest

/-- The items of a sequence without an indentation of its own. -/
def looseItems (handles : Handles) : Nat → List Token → Except Fault (List Node × List Token)
  | 0, rest => unexpected rest
  | fuel + 1, .blockEntry :: rest => do
    -- A loose item may be followed by the next entry of the mapping around it.
    let (item, rest) ← if endsLooseItem rest then .ok (.empty, rest)
      else node handles true false fuel rest
    let (items, rest) ← looseItems handles fuel rest
    return (item :: items, rest)
  -- Loose items end where something else than an entry follows.
  | _ + 1, rest => .ok ([], rest)

/-- The entries of a block mapping up to its end. -/
def blockEntries (handles : Handles) :
    Nat → List Token → Except Fault (List (Node × Node) × List Token)
  | 0, rest => unexpected rest
  | fuel + 1, .key :: rest => do
    -- Both parts of an entry can be left out.
    let (key, rest) ← if endsBlockPart rest then .ok (.empty, rest)
      else node handles true true fuel rest
    let (value, rest) ← match rest with
      | .value :: rest =>
        if endsBlockPart rest then .ok (Node.empty, rest) else node handles true true fuel rest
      | rest => .ok (.empty, rest)
    let (entries, rest) ← blockEntries handles fuel rest
    return ((key, value) :: entries, rest)
  | _ + 1, .blockEnd :: rest => .ok ([], rest)
  | _ + 1, rest => unexpected rest

/-- A key and a value between brackets or braces, either of which may be missing. -/
def flowPair (handles : Handles) (closing : Token) :
    Nat → List Token → Except Fault ((Node × Node) × List Token)
  | 0, rest => unexpected rest
  | fuel + 1, tokens => do
    -- A key or a value that is missing is empty.
    let (key, rest) ← if endsFlowKey closing tokens then .ok (.empty, tokens)
      else node handles false false fuel tokens
    let (value, rest) ← match rest with
      | .value :: rest =>
        if endsFlowValue closing rest then .ok (Node.empty, rest)
        else node handles false false fuel rest
      | rest => .ok (.empty, rest)
    return ((key, value), rest)

/-- The items between brackets up to the closing one; a single pair makes a mapping. -/
def flowItems (handles : Handles) (first : Bool) :
    Nat → List Token → Except Fault (List Node × List Token)
  | 0, rest => unexpected rest
  | _ + 1, .closeBracket :: rest => .ok ([], rest)
  | fuel + 1, tokens => do
    -- Between two items there has to be a comma.
    let rest ← afterComma first tokens
    let place := rest.length
    match rest with
    -- The last item can have a comma after it.
    | .closeBracket :: rest => return ([], rest)
    | .key :: rest => do
      let (pair, rest) ← flowPair handles .closeBracket fuel rest
      let (items, rest) ← flowItems handles false fuel rest
      return (.mapping place none [pair] :: items, rest)
    | rest => do
      let (item, rest) ← node handles false false fuel rest
      let (items, rest) ← flowItems handles false fuel rest
      return (item :: items, rest)

/-- The entries between braces up to the closing one; a key alone has an empty value. -/
def flowEntries (handles : Handles) (first : Bool) :
    Nat → List Token → Except Fault (List (Node × Node) × List Token)
  | 0, rest => unexpected rest
  | _ + 1, .closeBrace :: rest => .ok ([], rest)
  | fuel + 1, tokens => do
    -- Between two entries there has to be a comma.
    let rest ← afterComma first tokens
    match rest with
    -- The last entry can have a comma after it.
    | .closeBrace :: rest => return ([], rest)
    | .key :: rest => do
      let (pair, rest) ← flowPair handles .closeBrace fuel rest
      let (entries, rest) ← flowEntries handles false fuel rest
      return (pair :: entries, rest)
    | rest => do
      let (key, rest) ← node handles false false fuel rest
      let (entries, rest) ← flowEntries handles false fuel rest
      -- An entry without a sign is a key with an empty value.
      return ((key, .empty) :: entries, rest)

end

/-- The handles that directives define, and what follows the directives; there may be one version
and one meaning for each handle. -/
def directives : Bool → Handles → List Token → Except Fault (Handles × List Token)
  | versioned, handles, .directive (.version major) :: rest =>
    -- At most one version may be named, and each handle only once.
    if versioned || major ≠ 1 then .error .notWellFormed else directives true handles rest
  | versioned, handles, .directive (.tag handle start) :: rest =>
    -- A handle may be given a new meaning only once.
    if (handles.lookup handle).isSome then .error .notWellFormed
    else directives versioned ((handle, start) :: handles) rest
  | versioned, handles, .directive .other :: rest => directives versioned handles rest
  | _, handles, rest => .ok (handles, rest)

/-- What follows the markers for the end of a document. -/
def afterMarkers (tokens : List Token) : List Token := tokens.dropWhile (· = .documentEnd)

/-- Whether a document without content ends here. -/
def endsDocument : List Token → Bool
  | [] => true
  | .directive _ :: _ => true
  | .documentStart :: _ => true
  | .documentEnd :: _ => true
  | _ => false

/-- Whether every anchor is new and every alias names an anchor before it, given the anchors so far.
-/
def areAnchorsSound (known : List String) : List Token → Bool
  | [] => true
  -- An anchor is known from where it stands, inside its own node too.
  | .anchor name :: rest => !known.contains name && areAnchorsSound (name :: known) rest
  | .alias name :: rest => known.contains name && areAnchorsSound known rest
  | _ :: rest => areAnchorsSound known rest

/-- How many collections may stand inside each other. -/
def depthLimit : Nat := 488

/-- Whether a token opens a collection. -/
def opensCollection : Token → Bool
  | .openBracket | .openBrace | .blockSequence | .blockMapping => true
  | _ => false

/-- Whether a token closes a collection. -/
def closesCollection : Token → Bool
  | .closeBracket | .closeBrace | .blockEnd => true
  | _ => false

/-- The tokens up to the first collection that stands too deep, given how many are open. -/
def limitDepth : Nat → List Token → List Token
  | _, [] => []
  | depth, token :: rest =>
    if opensCollection token then
      -- A collection that stands too deep ends the tokens, so that nothing behind it is read.
      if depth = depthLimit then [.unreadable .tooDeep]
      else token :: limitDepth (depth + 1) rest
    else token :: limitDepth (if closesCollection token then depth - 1 else depth) rest

/-- The node of the only document, or an empty node if there is none. -/
def document (tokens : List Token) : Except Fault Node := do
  let tokens := limitDepth 0 tokens
  -- At most four readers call each other before another token is read.
  let fuel := 4 * tokens.length + 4
  if tokens.isEmpty then return .empty
  -- Anchors and aliases are looked at over all tokens, in their order.
  if !areAnchorsSound [] tokens then throw .notWellFormed
  let (handles, rest) ← directives false [] tokens
  let handles := handles ++ defaultHandles
  let (node, rest) ← match rest with
    | .documentStart :: rest =>
      if endsDocument rest then .ok (.empty, rest) else node handles true false fuel rest
    | rest =>
      -- Directives have to be followed by the start of a document.
      if rest.length < tokens.length then unexpected rest else node handles true false fuel rest
  -- Nothing but markers may follow the only document.
  match afterMarkers rest with
  | [] => return node
  | rest => unexpected rest

end CycleSchedule.Yaml
