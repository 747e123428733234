import CycleSchedule.Yaml.Token

/-! Cutting a document into words; indentation is turned into marks that open and close blocks. -/

namespace CycleSchedule.Yaml

/-- A place where a key may have begun, to be confirmed by a colon on the same line. -/
structure KeyCandidate where
  place : Spot
  tokensBefore : Nat
  required : Bool
deriving DecidableEq, Repr

/-- Whether a candidate is too far back for a colon to confirm it. -/
def KeyCandidate.isStale (key : KeyCandidate) : List Spot → Bool
  | [] => false
  -- A colon confirms a key on its own line and not too far behind it.
  | spot :: _ => key.place.line ≠ spot.line || spot.index - key.place.index > 1024

/-- The work left and done: tokens and indentations are kept latest first. A candidate for a key is
kept for the innermost brackets and for each pair around them. -/
structure Lexer where
  rest : List Spot
  tokens : List Token
  indents : List Int
  keyAllowed : Bool
  candidate : Option KeyCandidate
  outer : List (Option KeyCandidate)

namespace Lexer

/-- The lexer at the start of a document. -/
def start (spots : List Spot) : Lexer := ⟨spots, [], [-1], true, none, []⟩

/-- Whether brackets or braces are open. -/
def inFlow (s : Lexer) : Bool := !s.outer.isEmpty

/-- The indentation of the innermost block. -/
def indent (s : Lexer) : Int := s.indents.headD (-1)

/-- The column that has been reached. -/
def column (s : Lexer) : Int := (s.rest.head?.map (·.column)).getD 0

/-- The lexer with one more token. -/
def emit (s : Lexer) (token : Token) : Lexer := { s with tokens := token :: s.tokens }

/-- The lexer after a number of characters. -/
def advance (s : Lexer) (count : Nat) : Lexer := { s with rest := s.rest.drop count }

/-- A candidate unless it is stale; a stale one must not have been required. -/
def refresh (rest : List Spot) : Option KeyCandidate → Option (Option KeyCandidate)
  | none => some none
  | some key =>
    -- A stale candidate is forgotten, unless a key had to be there.
    if key.isStale rest then if key.required then none else some none
    else some (some key)

/-- The lexer without stale candidates. -/
def dropStale (s : Lexer) : Except Fault Lexer := do
  let candidate ← wellFormed (refresh s.rest s.candidate)
  let outer ← wellFormed (s.outer.mapM (refresh s.rest))
  return { s with candidate, outer }

/-- The lexer without its candidate, which must not be required. -/
def dropCandidate (s : Lexer) : Except Fault Lexer :=
  match s.candidate with
  | none => .ok s
  | some key =>
    -- A key that had to be there has not been confirmed.
    if key.required then .error .notWellFormed else .ok { s with candidate := none }

/-- The lexer with a candidate here, if a key may begin here. -/
def markCandidate (s : Lexer) : Except Fault Lexer :=
  match s.keyAllowed, s.rest with
  | true, spot :: _ => do
    let s ← s.dropCandidate
    -- At the indentation of a block, nothing but its next key can stand.
    let required := !s.inFlow && s.indent = s.column
    return { s with candidate := some ⟨spot, s.tokens.length, required⟩ }
  | _, _ => .ok s

/-- Blocks that are indented by more than a column, closed. -/
def closeBlocks (column : Int) : List Int → List Token → List Int × List Token
  | indent :: indents, tokens =>
    -- Each block that is left gets a mark for its end.
    if indent > column then closeBlocks column indents (.blockEnd :: tokens)
    else (indent :: indents, tokens)
  | [], tokens => ([], tokens)

/-- The lexer outside every block that is indented by more than a column. -/
def unwind (s : Lexer) (column : Int) : Lexer :=
  if s.inFlow then s
  else
    let (indents, tokens) := closeBlocks column s.indents s.tokens
    { s with indents, tokens }

/-- The lexer inside a block at the given column, with the token that opens it if it is new. -/
def enterBlock (s : Lexer) (column : Int) (token : Token) : Lexer :=
  -- A block at the same column is the one that is open already.
  if s.indent < column then { s with indents := column :: s.indents, tokens := token :: s.tokens }
  else s

/-- The lexer before the next character that is neither space nor part of a comment. -/
def skipIgnored (s : Lexer) : Nat → Lexer
  | 0 => s
  | fuel + 1 =>
    let rest := skipSpaces s.rest
    let rest := if startsWith '#' rest then skipLine rest else rest
    match rest with
    | spot :: after =>
      if isBreak spot.char then
        -- A key may start on a new line, but not within brackets.
        skipIgnored { s with rest := after, keyAllowed := s.keyAllowed || !s.inFlow } fuel
      else { s with rest }
    | [] => { s with rest }

/-- Takes what ends all blocks: a marker or a directive. -/
def leaveDocument (s : Lexer) : Except Fault Lexer := do
  -- All blocks are closed, and a key that had to be there is missing.
  let s ← (s.unwind (-1)).dropCandidate
  return { s with keyAllowed := false }

/-- Takes an opening bracket or brace. -/
def openFlow (s : Lexer) (token : Token) : Except Fault Lexer := do
  let s ← s.markCandidate
  -- What is inside the brackets has candidates of its own.
  return { s.advance 1 with
    tokens := token :: s.tokens, keyAllowed := true, candidate := none,
    outer := s.candidate :: s.outer }

/-- Takes a closing bracket or brace. -/
def closeFlow (s : Lexer) (token : Token) : Except Fault Lexer := do
  let s ← s.dropCandidate
  -- The candidate in front of the brackets is back once they are closed.
  match s.outer with
  | [] => .error .notWellFormed
  | candidate :: outer =>
    return { s.advance 1 with tokens := token :: s.tokens, keyAllowed := false, candidate, outer }

/-- Takes a comma. -/
def takeComma (s : Lexer) : Except Fault Lexer := do
  let s ← s.dropCandidate
  return ({ s with keyAllowed := true }.emit .comma).advance 1

/-- Takes the hyphen of an item. -/
def takeEntry (s : Lexer) : Except Fault Lexer := do
  -- Outside of brackets an item begins a line, or stands behind another sign.
  if !s.inFlow && !s.keyAllowed then throw .notWellFormed
  let s := if s.inFlow then s else s.enterBlock s.column .blockSequence
  let s ← s.dropCandidate
  return ({ s with keyAllowed := true }.emit .blockEntry).advance 1

/-- Takes the question mark of a key. -/
def takeKey (s : Lexer) : Except Fault Lexer := do
  if !s.inFlow && !s.keyAllowed then throw .notWellFormed
  let s := if s.inFlow then s else s.enterBlock s.column .blockMapping
  let s ← s.dropCandidate
  return ({ s with keyAllowed := !s.inFlow }.emit .key).advance 1

/-- Takes a colon after a candidate, which thereby is a key; the tokens that say so go before it. -/
def confirmKey (s : Lexer) (key : KeyCandidate) : Lexer :=
  -- The tokens of the key are on top; the key itself has to be announced below them.
  let since := s.tokens.length - key.tokensBefore
  let before := { s with candidate := none, keyAllowed := false, tokens := s.tokens.drop since }
  let opened :=
    if s.inFlow then before else before.enterBlock key.place.column .blockMapping
  { opened with tokens := s.tokens.take since ++ .key :: opened.tokens }

/-- Takes the colon of a value. -/
def takeValue (s : Lexer) : Except Fault Lexer := do
  match s.candidate with
  -- The candidate has been waiting for this colon.
  | some key => return ((s.confirmKey key).emit .value).advance 1
  | none =>
    -- A colon without a key before it makes an entry with an empty key.
    if !s.inFlow && !s.keyAllowed then throw .notWellFormed
    let s := if s.inFlow then s else s.enterBlock s.column .blockMapping
    return ({ s with keyAllowed := !s.inFlow }.emit .value).advance 1

/-- Takes a token that may begin a key, given what follows it. -/
def takeAtom (s : Lexer) (token : Token) (after : List Spot) : Except Fault Lexer := do
  let s ← s.markCandidate
  return { s.emit token with rest := after, keyAllowed := false }

/-- Takes a quoted scalar. -/
def takeQuoted (s : Lexer) (double : Bool) : Except Fault Lexer := do
  -- A scalar begins with its quotation mark and ends behind the other one.
  let (text, after) ← quoted double (s.rest.length + 1) [] (s.rest.drop 1)
  s.takeAtom (.scalar false (String.ofList text)) after

/-- Takes a block of lines. -/
def takeBlock (s : Lexer) (fold : Bool) : Except Fault Lexer := do
  -- A block takes whole lines, so a key may follow it.
  let s ← s.dropCandidate
  let (text, after) ← wellFormed (block? fold s.indent (s.rest.drop 1))
  return { s.emit (.scalar false (String.ofList text)) with rest := after, keyAllowed := true }

/-- Takes a plain scalar. -/
def takePlain (s : Lexer) : Except Fault Lexer := do
  -- Only a scalar that ended at a line break leaves the start of a line behind it.
  let (text, after, broken) := plain s.inFlow (s.indent + 1) (s.rest.length + 1) [] false s.rest
  let s ← s.takeAtom (.scalar true (String.ofList text)) after
  return { s with keyAllowed := broken }

/-- The characters that cannot begin a plain scalar, though some of them can before a word. -/
def indicators : List Char :=
  ['-', '?', ':', '#', '&', '*', '!', '|', '>', '\x27', '\x22', '%', '@', '\x60'] ++ flowIndicators

/-- Whether a plain scalar begins with a character, given what follows it. -/
def beginsPlain (s : Lexer) (c : Char) (after : List Spot) : Bool :=
  -- A sign may begin a scalar if something is joined to it.
  !(isSpace c || isBreak c || indicators.contains c) ||
    (!atGap after && (c = '-' || (!s.inFlow && (c = '?' || c = ':'))))

/-- Takes the token that begins with the first character. -/
def takeToken (s : Lexer) (spot : Spot) (after : List Spot) : Except Fault Lexer :=
  let c := spot.char
  let alone := atGap after
  -- Directives and markers of documents stand at the beginning of a line only.
  if spot.column = 0 && c = '%' then do
    let s ← s.leaveDocument
    let (directive, after) ← wellFormed (directive? after)
    return { s.emit (.directive directive) with rest := after }
  else if spot.column = 0 && atMarker s.rest then do
    let s ← s.leaveDocument
    return (s.emit (if c = '-' then .documentStart else .documentEnd)).advance 3
  else if c = '[' then s.openFlow .openBracket
  else if c = '\x7B' then s.openFlow .openBrace
  else if c = ']' then s.closeFlow .closeBracket
  else if c = '\x7D' then s.closeFlow .closeBrace
  else if c = ',' then s.takeComma
  else if c = '-' && alone then s.takeEntry
  else if c = '?' && (s.inFlow || alone) then s.takeKey
  else if c = ':' && (s.inFlow || alone) then s.takeValue
  -- Aliases, anchors and tags can begin a key, as scalars can.
  else if c = '*' then do
    let (name, after) ← wellFormed (name? after)
    s.takeAtom (.alias name) after
  else if c = '&' then do
    let (name, after) ← wellFormed (name? after)
    s.takeAtom (.anchor name) after
  else if c = '!' then do
    let (tag, after) ← wellFormed (tag? s.rest)
    s.takeAtom (.tag tag) after
  else if c = '|' && !s.inFlow then s.takeBlock false
  else if c = '>' && !s.inFlow then s.takeBlock true
  else if c = '\x27' then s.takeQuoted false
  else if c = '\x22' then s.takeQuoted true
  else if s.beginsPlain c after then s.takePlain
  else .error .notWellFormed

/-- The lexer before the next token, all blocks closed that end before it. -/
def approach (s : Lexer) : Except Fault Lexer := do
  -- A candidate may have become stale by the characters that were skipped.
  let s ← (s.skipIgnored (s.rest.length + 1)).dropStale
  -- Blocks are closed by the column of what comes next.
  return if s.rest.isEmpty then s else s.unwind s.column

/-- The lexer after one more step, or nothing at the end. -/
def next? (s : Lexer) : Except Fault (Option Lexer) := do
  let s ← s.approach
  match s.rest with
  | [] => return none
  | spot :: after => return some (← s.takeToken spot after)

/-- The tokens at the end, where all blocks are closed. -/
def finish (s : Lexer) : Except Fault (List Token) := do
  -- What is open at the end is closed as at the end of a document.
  let s ← (← s.approach).leaveDocument
  return s.tokens.reverse

/-- Takes tokens until nothing is left or nothing can be read; then the reason is the last token. -/
def run : Nat → Lexer → List Token
  | 0, s => s.tokens.reverse ++ [.unreadable .notWellFormed]
  | fuel + 1, s =>
    let step := do
      match ← s.next? with
      | some next => return Sum.inl next
      | none => return Sum.inr (← s.finish)
    -- What was read before a fault is kept in front of it.
    match step with
    | .ok (.inl next) => run fuel next
    | .ok (.inr tokens) => tokens
    | .error fault => s.tokens.reverse ++ [.unreadable fault]

end Lexer

/-- The tokens of a text; one that could not be read is the last. -/
def tokens (cs : List Char) : List Token :=
  match spots? cs with
  | none => [.unreadable .notWellFormed]
  | some spots => Lexer.run (spots.length + 1) (.start spots)

end CycleSchedule.Yaml
