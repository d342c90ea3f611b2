import TypedClient.Notation.Yaml.Token

/-!
Events: the nodes of a YAML text in order, as they open and close. The grammar is read by a machine
with a stack of places to come back to.
-/
namespace TypedClient.Notation.Yaml

inductive Event where
  | streamEnd
  | documentStart
  | documentEnd
  | alias (name : String)
  | scalar (anchor : Option String) (tag : Option Tag) (text : String) (style : Style)
  | listStart (anchor : Option String) (tag : Option Tag)
  | listEnd
  | mapStart (anchor : Option String) (tag : Option Tag)
  | mapEnd
  deriving DecidableEq

inductive Place where
  | firstDocument
  | nextDocument
  | documentContent
  | documentEnd
  | blockNode
  | blockFirstEntry
  | blockEntry
  | bareEntry
  | blockFirstKey
  | blockKey
  | blockValue
  | flowFirstEntry
  | flowEntry
  | pairKey
  | pairValue
  | pairEnd
  | flowFirstKey
  | flowKey
  | flowValue
  | flowEmptyValue
  | finished
  deriving DecidableEq

structure Parser where
  lexer : Lexer
  place : Place := .firstDocument
  returns : List Place := []
  handles : List (String × Tag) := []

namespace Parser

def defaultHandles : List (String × Tag) :=
  [("!", .ofText "!"), ("!!", .ofText "tag:yaml.org,2002:")]

def peek (parser : Parser) : Option (Token × Parser) := do
  let (token, lexer) ← parser.lexer.next
  pure (token, { parser with lexer })

def drop (parser : Parser) : Parser :=
  { parser with lexer := parser.lexer.drop }

def goTo (parser : Parser) (place : Place) : Parser :=
  { parser with place }

def goBack (parser : Parser) : Parser :=
  match parser.returns with
  | place :: returns => { parser with place, returns }
  | [] => { parser with place := .finished }

def returnTo (parser : Parser) (place : Place) : Parser :=
  { parser with returns := place :: parser.returns }

def emptyScalar : Event :=
  .scalar none none "" .plain

def resolveTag (parser : Parser) (handle : String) (suffix : Tag) : Option Tag :=
  if handle.isEmpty then some suffix
  else (parser.handles.lookup handle).map (· ++ suffix)

/-- An anchor and a tag in front of a node, in either order. -/
def properties (parser : Parser) : Option (Option String × Option Tag × Token × Parser) := do
  let (token, parser) ← parser.peek
  match token with
  | .anchor name =>
    let (token, parser) ← parser.drop.peek
    match token with
    | .tag handle suffix =>
      let tag ← parser.resolveTag handle suffix
      let (token, parser) ← parser.drop.peek
      pure (some name, some tag, token, parser)
    | token => pure (some name, none, token, parser)
  | .tag handle suffix =>
    let (token, next) ← parser.drop.peek
    match token with
    | .anchor name =>
      let (token, next) ← next.drop.peek
      let tag ← parser.resolveTag handle suffix
      pure (some name, some tag, token, next)
    | token =>
      let tag ← parser.resolveTag handle suffix
      pure (none, some tag, token, next)
  | token => pure (none, none, token, parser)

/-- The next node. Block collections may stand only in a block, and a sequence without indentation
only in a mapping. -/
def node (parser : Parser) (inBlock bare : Bool) : Option (Event × Parser) := do
  let (token, parser) ← parser.peek
  match token with
  | .alias name => pure (.alias name, parser.goBack.drop)
  | _ =>
    let (anchor, tag, token, parser) ← parser.properties
    match token with
    | .blockEntry =>
      if bare then pure (.listStart anchor tag, parser.goTo .bareEntry)
      else if anchor.isSome || tag.isSome then
        pure (.scalar anchor tag "" .plain, parser.goBack)
      else none
    | .scalar text style => pure (.scalar anchor tag text style, parser.goBack.drop)
    | .flowSequenceStart => pure (.listStart anchor tag, parser.goTo .flowFirstEntry)
    | .flowMappingStart => pure (.mapStart anchor tag, parser.goTo .flowFirstKey)
    | token =>
      if inBlock && token == .blockSequenceStart then
        pure (.listStart anchor tag, parser.goTo .blockFirstEntry)
      else if inBlock && token == .blockMappingStart then
        pure (.mapStart anchor tag, parser.goTo .blockFirstKey)
      else if anchor.isSome || tag.isSome then
        pure (.scalar anchor tag "" .plain, parser.goBack)
      else none

def isDirective : Token → Bool
  | .version .. | .tagHandle .. => true
  | _ => false

/-- Reads directives up to the start of a document. -/
def directives : Nat → Bool → List (String × Tag) → Parser → Option (Token × Parser)
  | 0, _, _, _ => none
  | fuel + 1, versioned, handles, parser => do
    let (token, parser) ← parser.peek
    match token with
    | .version major minor =>
      if versioned || major ≠ 1 || (minor ≠ 1 && minor ≠ 2) then none
      else directives fuel true handles parser.drop
    | .tagHandle handle stem =>
      if handles.any (·.1 == handle) then none
      else directives fuel versioned (handles ++ [(handle, stem)]) parser.drop
    | token => pure (token, { parser with handles := handles ++ defaultHandles })

def skipDocumentEnds : Nat → Parser → Option (Token × Parser)
  | 0, _ => none
  | fuel + 1, parser => do
    let (token, parser) ← parser.peek
    if token == .documentEnd then skipDocumentEnds fuel parser.drop else pure (token, parser)

def remaining (parser : Parser) : Nat :=
  parser.lexer.cursor.size + parser.lexer.queue.length + 2

/-- Only the first document may start without a mark. -/
def documentStart (parser : Parser) (first : Bool) : Option (Event × Parser) := do
  let (token, parser) ← if first then parser.peek else skipDocumentEnds parser.remaining parser
  if first && !isDirective token && token ≠ .documentStart && token ≠ .streamEnd then
    pure (.documentStart,
      { (parser.returnTo .documentEnd).goTo .blockNode with handles := defaultHandles })
  else if token == .streamEnd then pure (.streamEnd, (parser.goTo .finished).drop)
  else
    let (token, parser) ← directives parser.remaining false [] parser
    if token == .documentStart then
      pure (.documentStart, ((parser.returnTo .documentEnd).goTo .documentContent).drop)
    else none

def endsDocument (token : Token) : Bool :=
  isDirective token || token == .documentStart || token == .documentEnd || token == .streamEnd

/-- A node, unless one of the given tokens stands in its place. -/
def nodeUnless (parser : Parser) (ends : List Token) (next : Place) (inBlock bare : Bool) :
    Option (Event × Parser) := do
  let (token, parser) ← parser.peek
  if ends.contains token then pure (emptyScalar, parser.goTo next)
  else (parser.returnTo next).node inBlock bare

def blockEntry (parser : Parser) : Option (Event × Parser) := do
  let (token, parser) ← parser.peek
  if token == .blockEntry then
    parser.drop.nodeUnless [.blockEntry, .blockEnd] .blockEntry true false
  else if token == .blockEnd then pure (.listEnd, parser.goBack.drop)
  else none

def bareEntry (parser : Parser) : Option (Event × Parser) := do
  let (token, parser) ← parser.peek
  if token == .blockEntry then
    parser.drop.nodeUnless [.blockEntry, .key, .value, .blockEnd] .bareEntry true false
  else pure (.listEnd, parser.goBack)

def blockKey (parser : Parser) : Option (Event × Parser) := do
  let (token, parser) ← parser.peek
  if token == .key then
    parser.drop.nodeUnless [.key, .value, .blockEnd] .blockValue true true
  else if token == .blockEnd then pure (.mapEnd, parser.goBack.drop)
  else none

def blockValue (parser : Parser) : Option (Event × Parser) := do
  let (token, parser) ← parser.peek
  if token == .value then
    parser.drop.nodeUnless [.key, .value, .blockEnd] .blockKey true true
  else pure (emptyScalar, parser.goTo .blockKey)

/-- Skips the comma before every entry but the first; a collection may end behind it. -/
def separator (parser : Parser) (first : Bool) (close : Token) : Option (Token × Parser) := do
  let (token, parser) ← parser.peek
  if first || token == close then pure (token, parser)
  else if token == .flowEntry then parser.drop.peek
  else none

def flowEntry (parser : Parser) (first : Bool) : Option (Event × Parser) := do
  let (token, parser) ← parser.separator first .flowSequenceEnd
  if token == .flowSequenceEnd then pure (.listEnd, parser.goBack.drop)
  else if token == .key then pure (.mapStart none none, (parser.goTo .pairKey).drop)
  else (parser.returnTo .flowEntry).node false false

/-- The key of a single pair within a list. What stands in place of an absent key is skipped. -/
def pairKey (parser : Parser) : Option (Event × Parser) := do
  let (token, parser) ← parser.peek
  if token == .value || token == .flowEntry || token == .flowSequenceEnd then
    pure (emptyScalar, (parser.goTo .pairValue).drop)
  else (parser.returnTo .pairValue).node false false

def pairValue (parser : Parser) : Option (Event × Parser) := do
  let (token, parser) ← parser.peek
  if token == .value then
    parser.drop.nodeUnless [.flowEntry, .flowSequenceEnd] .pairEnd false false
  else pure (emptyScalar, parser.goTo .pairEnd)

def flowKey (parser : Parser) (first : Bool) : Option (Event × Parser) := do
  let (token, parser) ← parser.separator first .flowMappingEnd
  if token == .flowMappingEnd then pure (.mapEnd, parser.goBack.drop)
  else if token == .key then
    parser.drop.nodeUnless [.value, .flowEntry, .flowMappingEnd] .flowValue false false
  else (parser.returnTo .flowEmptyValue).node false false

def flowValue (parser : Parser) : Option (Event × Parser) := do
  let (token, parser) ← parser.peek
  if token == .value then
    parser.drop.nodeUnless [.flowEntry, .flowMappingEnd] .flowKey false false
  else pure (emptyScalar, parser.goTo .flowKey)

/-- The next event, or nothing where the text is malformed. -/
def next (parser : Parser) : Option (Event × Parser) :=
  match parser.place with
  | .firstDocument => parser.documentStart true
  | .nextDocument => parser.documentStart false
  | .documentContent => do
    let (token, parser) ← parser.peek
    if endsDocument token then pure (emptyScalar, parser.goBack) else parser.node true false
  | .documentEnd => do
    let (token, parser) ← parser.peek
    let parser := if token == .documentEnd then parser.drop else parser
    pure (.documentEnd, parser.goTo .nextDocument)
  | .blockNode => parser.node true false
  | .blockFirstEntry => do
    let (_, parser) ← parser.peek
    parser.drop.blockEntry
  | .blockEntry => parser.blockEntry
  | .bareEntry => parser.bareEntry
  | .blockFirstKey => do
    let (_, parser) ← parser.peek
    parser.drop.blockKey
  | .blockKey => parser.blockKey
  | .blockValue => parser.blockValue
  | .flowFirstEntry => do
    let (_, parser) ← parser.peek
    parser.drop.flowEntry true
  | .flowEntry => parser.flowEntry false
  | .pairKey => parser.pairKey
  | .pairValue => parser.pairValue
  | .pairEnd => do
    let (_, parser) ← parser.peek
    pure (.mapEnd, parser.goTo .flowEntry)
  | .flowFirstKey => do
    let (_, parser) ← parser.peek
    parser.drop.flowKey true
  | .flowKey => parser.flowKey false
  | .flowValue => parser.flowValue
  | .flowEmptyValue => do
    let (_, parser) ← parser.peek
    pure (emptyScalar, parser.goTo .flowKey)
  | .finished => none

end Parser

structure Events where
  events : List Event
  closed : Bool
  /-- Whether the text ends with it. -/
  last : Bool

def collectEvents : Nat → List Event → Parser → Events
  | 0, read, _ => ⟨read.reverse, false, false⟩
  | fuel + 1, read, parser =>
    match parser.next with
    | none => ⟨read.reverse, false, false⟩
    | some (event, parser) =>
      match event with
      | .documentStart => collectEvents fuel read parser
      | .streamEnd => ⟨read.reverse, true, true⟩
      | .documentEnd =>
        ⟨read.reverse, true,
          match parser.next with
          | some (.streamEnd, _) => true
          | _ => false⟩
      | event => collectEvents fuel (event :: read) parser

def Events.ofText (text : String) : Events :=
  let intake := Intake.ofText text
  let rest := intake.chars
  let cursor : Cursor := { rest, size := rest.length }
  collectEvents (8 * rest.length + 16) [] { lexer := { cursor, spoiled := intake.spoiled } }

end TypedClient.Notation.Yaml
