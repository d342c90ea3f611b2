import TypedClient.Notation.Yaml.Scalar

/-!
Tokens of a YAML text. A key is known as such only when its colon is found, so tokens wait in a queue
until no simple key can start at the first of them.
-/
namespace TypedClient.Notation.Yaml

inductive Style where
  | plain
  | quoted
  | literal
  | folded
  deriving DecidableEq

/-- The bytes of a tag, which need not be a text. -/
abbrev Tag := List UInt8

def Tag.ofText (text : String) : Tag :=
  text.toUTF8.toList

inductive Token where
  | streamEnd
  | version (major minor : Nat)
  | tagHandle (handle : String) (stem : Tag)
  | documentStart
  | documentEnd
  | blockSequenceStart
  | blockMappingStart
  | blockEnd
  | flowSequenceStart
  | flowSequenceEnd
  | flowMappingStart
  | flowMappingEnd
  | blockEntry
  | flowEntry
  | key
  | value
  | alias (name : String)
  | anchor (name : String)
  | tag (handle : String) (suffix : Tag)
  | scalar (text : String) (style : Style)
  deriving DecidableEq

/-- A place at which a key without a mark of its own may have started. -/
structure SimpleKey where
  possible : Bool := false
  required : Bool := false
  token : Nat := 0
  index : Nat := 0
  line : Nat := 0
  column : Nat := 0

structure Lexer where
  cursor : Cursor
  flowLevel : Nat := 0
  indent : Int := -1
  outer : List Int := []
  keyAllowed : Bool := true
  /-- One for the block context and one for each open flow collection, innermost first. -/
  keys : List SimpleKey := [{}]
  queue : List Token := []
  taken : Nat := 0
  finished : Bool := false
  /-- Whether the text goes on where the cursor ends, with what cannot be read. -/
  spoiled : Bool := false

namespace Lexer

/-- The greatest length of a simple key, in bytes. -/
def maxKeyLength : Nat := 1024

def inFlow (lexer : Lexer) : Bool :=
  0 < lexer.flowLevel

def push (lexer : Lexer) (token : Token) : Lexer :=
  { lexer with queue := lexer.queue ++ [token] }

def insertAt (lexer : Lexer) (number : Nat) (token : Token) : Lexer :=
  let place := number - lexer.taken
  { lexer with queue := lexer.queue.take place ++ token :: lexer.queue.drop place }

/-- A key ends on its line and is not too long. -/
def isStale (cursor : Cursor) (key : SimpleKey) : Bool :=
  key.possible && (key.line < cursor.line || key.index + maxKeyLength < cursor.index)

/-- Gives up the stale keys. A required key that goes stale is malformed. -/
def refreshKeys (cursor : Cursor) (keys : List SimpleKey) : Option (List SimpleKey) :=
  if keys.any (isStale cursor) then
    keys.mapM fun key =>
      if isStale cursor key then if key.required then none else some { key with possible := false }
      else some key
  else some keys

def refresh (lexer : Lexer) : Option Lexer := do
  let keys ← refreshKeys lexer.cursor lexer.keys
  pure { lexer with keys }

def dropKey (lexer : Lexer) : Option Lexer :=
  match lexer.keys with
  | key :: rest =>
    if key.possible && key.required then none
    else some { lexer with keys := { key with possible := false } :: rest }
  | [] => some lexer

/-- Notes that a simple key may start here. -/
def noteKey (lexer : Lexer) : Option Lexer :=
  if lexer.keyAllowed then do
    let lexer ← lexer.dropKey
    let cursor := lexer.cursor
    let key : SimpleKey :=
      { possible := true
        required := !lexer.inFlow && lexer.indent == cursor.column
        token := lexer.taken + lexer.queue.length
        index := cursor.index
        line := cursor.line
        column := cursor.column }
    pure { lexer with keys := key :: lexer.keys.tail }
  else some lexer

/-- Opens a block at a column, if it lies deeper than the current one. -/
def openBlock (lexer : Lexer) (column : Nat) (token : Token) (number : Option Nat) : Lexer :=
  if !lexer.inFlow && lexer.indent < column then
    let lexer := { lexer with outer := lexer.indent :: lexer.outer, indent := column }
    match number with
    | some number => lexer.insertAt number token
    | none => lexer.push token
  else lexer

def closeBlocksFrom (column : Int) (indent : Int) (queue : List Token) :
    List Int → Int × List Int × List Token
  | [] => (indent, [], queue)
  | next :: rest =>
    if column < indent then closeBlocksFrom column next (queue ++ [.blockEnd]) rest
    else (indent, next :: rest, queue)

def closeBlocks (lexer : Lexer) (column : Int) : Lexer :=
  if lexer.inFlow then lexer
  else
    let (indent, outer, queue) := closeBlocksFrom column lexer.indent lexer.queue lexer.outer
    { lexer with indent, outer, queue }

def skipSpaceFrom (flow : Bool) : Nat → Bool → Cursor → Bool × Cursor
  | 0, allowed, cursor => (allowed, cursor)
  | fuel + 1, allowed, cursor =>
    let cursor := if cursor.column == 0 && cursor.sees '\ufeff' then cursor.skip else cursor
    let cursor :=
      cursor.skipWhile fun c => c.sees ' ' || ((flow || !allowed) && c.sees '\t')
    let cursor := cursor.skipComment
    if cursor.seesBreak then skipSpaceFrom flow fuel (allowed || !flow) cursor.skipBreak
    else (allowed, cursor)

/-- Skips white space and comments. A line may start with a byte order mark, which takes a column.
A key may start on a new line of a block. -/
def skipSpace (lexer : Lexer) : Lexer :=
  let (keyAllowed, cursor) :=
    skipSpaceFrom lexer.inFlow (lexer.cursor.size + 1) lexer.keyAllowed lexer.cursor
  { lexer with keyAllowed, cursor }

/-! ### Directives, anchors and tags -/

def isTagChar (verbatim : Bool) (c : Char) : Bool :=
  c.isAlphanum || "_-;/?:@&=+$.!~*\x27()%".contains c ||
    (verbatim && (c == ',' || c == '[' || c == ']'))

/-- The number of bytes that must follow a byte of a character, where `pending` are awaited. -/
def pendingAfter (byte : Nat) : Nat → Option Nat
  | 0 =>
    if byte < 0x80 then some 0
    else if byte < 0xC0 then none
    else if byte < 0xE0 then some 1
    else if byte < 0xF0 then some 2
    else if byte < 0xF8 then some 3
    else none
  | pending + 1 => if 0x80 ≤ byte ∧ byte < 0xC0 then some pending else none

/-- The bytes of a tag. Those that percent signs stand for have the form of whole characters. -/
def tagBytes (pending : Nat) : List Char → Option Tag
  | [] => if pending = 0 then some [] else none
  | '%' :: high :: low :: rest => do
    let byte ← hexNumber? [high, low]
    let pending ← pendingAfter byte pending
    (tagBytes pending rest).map (byte.toUInt8 :: ·)
  | c :: rest =>
    if c == '%' || pending ≠ 0 then none else (tagBytes 0 rest).map (c.toNat.toUInt8 :: ·)

/-- The part of a tag behind its handle. It ends at a zero. -/
def tagSuffix (verbatim : Bool) (head : List Char) (cursor : Cursor) : Option (Tag × Cursor) := do
  let (read, next) := cursor.takeWhile fun c => c.peek.any (isTagChar verbatim)
  if head.isEmpty && read.isEmpty then none
  else
    let bytes ← tagBytes 0 (head.tail ++ read)
    pure (bytes.takeWhile (· != 0), next)

/-- A handle starts with an exclamation mark and may end with another. -/
def readHandle (directive : Bool) (cursor : Cursor) : Option (List Char × Cursor) :=
  if !cursor.sees '!' then none
  else
    let (word, next) := cursor.skip.takeWhile fun c => c.peek.any isWord
    if next.sees '!' then some ('!' :: word ++ ['!'], next.skip)
    else if directive && !word.isEmpty then none
    else some ('!' :: word, next)

def readNumber (cursor : Cursor) : Option (Nat × Cursor) :=
  let (digits, next) := cursor.takeWhile fun c => c.peek.any Char.isDigit
  if digits.isEmpty || digits.length > 9 then none
  else some (digits.foldl (fun value c => 10 * value + (c.toNat - 48)) 0, next)

def readVersion (cursor : Cursor) : Option (Token × Cursor) := do
  let (major, next) ← readNumber cursor.skipBlanks
  if next.sees '.' then
    let (minor, next) ← readNumber next.skip
    pure (.version major minor, next)
  else none

def readTagDirective (cursor : Cursor) : Option (Token × Cursor) := do
  let (handle, next) ← readHandle true cursor.skipBlanks
  if next.seesBlank then
    let (stem, next) ← tagSuffix true [] next.skipBlanks
    if next.gapAt 0 then pure (.tagHandle (String.ofList handle) stem, next) else none
  else none

/-- A directive fills its line, save for a comment. -/
def readDirective (cursor : Cursor) : Option (Token × Cursor) := do
  let (name, next) := cursor.skip.takeWhile fun c => c.peek.any isWord
  if !next.gapAt 0 then none
  else
    let (token, next) ←
      if name == "YAML".toList then readVersion next
      else if name == "TAG".toList then readTagDirective next
      else none
    let next := next.skipBlanks.skipComment
    if next.seesLineEnd then pure (token, next.skipBreak) else none

def readAnchorName (cursor : Cursor) : Option (String × Cursor) :=
  let (name, next) := cursor.skip.takeWhile fun c => c.peek.any isWord
  if name.isEmpty then none
  else if next.gapAt 0 || next.peek.any fun c => "?:,]\x7d%@`".contains c then
    some (String.ofList name, next)
  else none

def endsTag (flow : Bool) (cursor : Cursor) : Bool :=
  cursor.gapAt 0 || (flow && cursor.sees ',')

def readTag (flow : Bool) (cursor : Cursor) : Option (Token × Cursor) :=
  if cursor.at? 1 == some '<' then do
    let (suffix, next) ← tagSuffix true [] (cursor.skipMany 2)
    if next.sees '>' && endsTag flow next.skip then pure (.tag "" suffix, next.skip) else none
  else do
    let (handle, next) ← readHandle false cursor
    let (handle, suffix, next) ←
      if handle.length > 1 && handle.getLast? == some '!' then do
        let (suffix, next) ← tagSuffix false [] next
        pure (String.ofList handle, suffix, next)
      else do
        let (suffix, next) ← tagSuffix false handle next
        pure (if suffix.isEmpty then ("", Tag.ofText "!", next) else ("!", suffix, next))
    if endsTag flow next then pure (.tag handle suffix, next) else none

/-! ### The next token -/

def advance (lexer : Lexer) (token : Token) (width : Nat) : Lexer :=
  { lexer with cursor := lexer.cursor.skipMany width }.push token

def takeStreamEnd (lexer : Lexer) : Option Lexer := do
  let lexer ← (lexer.closeBlocks (-1)).dropKey
  pure { lexer.push .streamEnd with keyAllowed := false, finished := true }

def takeDirective (lexer : Lexer) : Option Lexer := do
  let lexer ← (lexer.closeBlocks (-1)).dropKey
  let (token, cursor) ← readDirective lexer.cursor
  pure { lexer.push token with keyAllowed := false, cursor }

def takeDocumentMark (lexer : Lexer) (token : Token) : Option Lexer := do
  let lexer ← (lexer.closeBlocks (-1)).dropKey
  pure { lexer.advance token 3 with keyAllowed := false }

def takeFlowStart (lexer : Lexer) (token : Token) : Option Lexer := do
  let lexer ← lexer.noteKey
  pure { lexer.advance token 1 with
    flowLevel := lexer.flowLevel + 1
    keys := {} :: lexer.keys
    keyAllowed := true }

def takeFlowEnd (lexer : Lexer) (token : Token) : Option Lexer := do
  let lexer ← lexer.dropKey
  pure { lexer.advance token 1 with
    flowLevel := lexer.flowLevel - 1
    keys := if lexer.inFlow then lexer.keys.tail else lexer.keys
    keyAllowed := false }

def takeFlowEntry (lexer : Lexer) : Option Lexer := do
  let lexer ← lexer.dropKey
  pure { lexer.advance .flowEntry 1 with keyAllowed := true }

def takeBlockEntry (lexer : Lexer) : Option Lexer :=
  if !lexer.inFlow && !lexer.keyAllowed then none
  else do
    let lexer ← (lexer.openBlock lexer.cursor.column .blockSequenceStart none).dropKey
    pure { lexer.advance .blockEntry 1 with keyAllowed := true }

def takeKey (lexer : Lexer) : Option Lexer :=
  if !lexer.inFlow && !lexer.keyAllowed then none
  else do
    let lexer ← (lexer.openBlock lexer.cursor.column .blockMappingStart none).dropKey
    pure { lexer.advance .key 1 with keyAllowed := !lexer.inFlow }

/-- A colon makes a key of what the last possible key starts with, or of nothing. -/
def takeValue (lexer : Lexer) : Option Lexer :=
  match lexer.keys with
  | [] => none
  | key :: outer =>
    if key.possible then
      let lexer := lexer.insertAt key.token .key
      let lexer := lexer.openBlock key.column .blockMappingStart (some key.token)
      some { lexer.advance .value 1 with
        keys := { key with possible := false } :: outer
        keyAllowed := false }
    else if !lexer.inFlow && !lexer.keyAllowed then none
    else
      let lexer := lexer.openBlock lexer.cursor.column .blockMappingStart none
      some { lexer.advance .value 1 with keyAllowed := !lexer.inFlow }

def takeAnchor (lexer : Lexer) (token : String → Token) : Option Lexer := do
  let lexer ← lexer.noteKey
  let (name, cursor) ← readAnchorName lexer.cursor
  pure { lexer.push (token name) with keyAllowed := false, cursor }

def takeTag (lexer : Lexer) : Option Lexer := do
  let lexer ← lexer.noteKey
  let (token, cursor) ← readTag lexer.inFlow lexer.cursor
  pure { lexer.push token with keyAllowed := false, cursor }

def takeBlockScalar (lexer : Lexer) (literal : Bool) : Option Lexer := do
  let lexer ← lexer.dropKey
  let (text, cursor) ← block literal lexer.indent lexer.cursor
  let style := if literal then Style.literal else Style.folded
  pure { lexer.push (.scalar text style) with keyAllowed := true, cursor }

def takeQuoted (lexer : Lexer) (single : Bool) : Option Lexer := do
  let lexer ← lexer.noteKey
  let (text, cursor) ← quoted single lexer.cursor
  pure { lexer.push (.scalar text .quoted) with keyAllowed := false, cursor }

def takePlain (lexer : Lexer) : Option Lexer := do
  let lexer ← lexer.noteKey
  let (text, broken, cursor) ← plain lexer.inFlow (lexer.indent + 1) lexer.cursor
  pure { lexer.push (.scalar text .plain) with keyAllowed := broken, cursor }

/-- Marks that a plain scalar does not start with. -/
def isIndicator (c : Char) : Bool :=
  "-?:,[]\x7b\x7d#&*!|>\x27\"%@`".contains c

/-- A dash, a question mark or a colon may start a plain scalar if no space follows it. -/
def startsPlain (lexer : Lexer) : Bool :=
  let cursor := lexer.cursor
  (!cursor.gapAt 0 && !cursor.peek.any isIndicator) ||
    (cursor.sees '-' && !(cursor.at? 1).any isBlank) ||
    (!lexer.inFlow && (cursor.sees '?' || cursor.sees ':') && !cursor.gapAt 1)

/-- Reads one more token of the text, with all that it settles about the tokens before it. -/
def read (lexer : Lexer) : Option Lexer := do
  let lexer ← lexer.skipSpace.refresh
  let lexer := lexer.closeBlocks lexer.cursor.column
  let cursor := lexer.cursor
  let flow := lexer.inFlow
  match cursor.peek with
  | none => lexer.takeStreamEnd
  | some c =>
    if cursor.column == 0 && c == '%' then lexer.takeDirective
    else if cursor.seesDocumentMark '-' then lexer.takeDocumentMark .documentStart
    else if cursor.seesDocumentMark '.' then lexer.takeDocumentMark .documentEnd
    else if c == '[' then lexer.takeFlowStart .flowSequenceStart
    else if c == '\x7b' then lexer.takeFlowStart .flowMappingStart
    else if c == ']' then lexer.takeFlowEnd .flowSequenceEnd
    else if c == '\x7d' then lexer.takeFlowEnd .flowMappingEnd
    else if c == ',' then lexer.takeFlowEntry
    else if c == '-' && cursor.gapAt 1 then lexer.takeBlockEntry
    else if c == '?' && (flow || cursor.gapAt 1) then lexer.takeKey
    else if c == ':' && (flow || cursor.gapAt 1) then lexer.takeValue
    else if c == '*' then lexer.takeAnchor .alias
    else if c == '&' then lexer.takeAnchor .anchor
    else if c == '!' then lexer.takeTag
    else if c == '|' && !flow then lexer.takeBlockScalar true
    else if c == '>' && !flow then lexer.takeBlockScalar false
    else if c == '\x27' then lexer.takeQuoted true
    else if c == '"' then lexer.takeQuoted false
    else if lexer.startsPlain then lexer.takePlain
    else none

/-- A token starts some characters before a spoiled part of the text, and does not reach it. -/
def readSound (lexer : Lexer) : Option Lexer := do
  if lexer.spoiled && (lexer.skipSpace.cursor.at? 3).isNone then none
  else
    let next ← lexer.read
    if next.spoiled && next.cursor.isEnd then none else pure next

/-- Whether the first token may still turn out to start a key. -/
def isPending (lexer : Lexer) : Bool :=
  lexer.queue.isEmpty || lexer.keys.any fun key => key.possible && key.token == lexer.taken

def fill : Nat → Lexer → Option Lexer
  | 0, lexer => if lexer.queue.isEmpty then none else some lexer
  | fuel + 1, lexer =>
    if lexer.finished then
      if lexer.queue.isEmpty then none else some lexer
    else do
      let lexer ← lexer.refresh
      if lexer.isPending then fill fuel (← lexer.readSound) else pure lexer

def next (lexer : Lexer) : Option (Token × Lexer) := do
  let lexer ← fill (lexer.cursor.size + 2) lexer
  let token ← lexer.queue.head?
  pure (token, lexer)

def drop (lexer : Lexer) : Lexer :=
  { lexer with queue := lexer.queue.tail, taken := lexer.taken + 1 }

end Lexer
end TypedClient.Notation.Yaml
