import TypedClient.Notation.Yaml.Cursor

/-!
The texts of scalars: plain, quoted and block. Every reader gives the text and the place behind it,
or nothing where the text is malformed.
-/
namespace TypedClient.Notation.Yaml

/-- White space between two parts of a scalar that spans lines. -/
structure Fold where
  blanks : List Char := []
  leading : List Char := []
  trailing : List Char := []
  broken : Bool := false

namespace Fold

def isEmpty (fold : Fold) : Bool :=
  fold.blanks.isEmpty && !fold.broken

/-- One line break is a space, and of several the first is dropped. -/
def text (fold : Fold) : List Char :=
  if fold.broken then
    if fold.leading == ['\n'] then
      if fold.trailing.isEmpty then [' '] else fold.trailing
    else fold.leading ++ fold.trailing
  else fold.blanks

/-- Takes in blanks and breaks. Tabs are no indentation below the given column. -/
def readFrom (indent : Int) : Nat → Fold → Cursor → Option (Fold × Cursor)
  | 0, fold, cursor => some (fold, cursor)
  | fuel + 1, fold, cursor =>
    match cursor.peek with
    | none => some (fold, cursor)
    | some c =>
      if isBlank c then
        if fold.broken then
          if c == '\t' && (cursor.column : Int) < indent then none
          else readFrom indent fuel fold cursor.skip
        else readFrom indent fuel { fold with blanks := fold.blanks ++ [c] } cursor.skip
      else if isBreak c then
        let (taken, next) := cursor.readBreak
        if fold.broken then
          readFrom indent fuel { fold with trailing := fold.trailing ++ taken } next
        else readFrom indent fuel { leading := taken, broken := true } next
      else some (fold, cursor)

def read (indent : Int) (fold : Fold) (cursor : Cursor) : Option (Fold × Cursor) :=
  readFrom indent cursor.size fold cursor

end Fold

/-! ### Plain scalars -/

def isFlowMark (c : Char) : Bool :=
  c == ',' || c == '[' || c == ']' || c == '\x7b' || c == '\x7d'

/-- Where a plain scalar ends within a line. -/
def endsPlain (flow : Bool) (cursor : Cursor) : Bool :=
  cursor.gapAt 0 || (cursor.sees ':' && cursor.gapAt 1) || (flow && cursor.peek.any isFlowMark)

/-- In a flow collection a colon stands not before another mark. -/
def isStrayColon (flow : Bool) (cursor : Cursor) : Bool :=
  flow && cursor.sees ':' && (cursor.at? 1).any fun c => isFlowMark c || c == '?'

/-- The text of a plain scalar, backwards, and whether a line was left after it. -/
def plainFrom (flow : Bool) (indent : Int) :
    Nat → List Char → Fold → Cursor → Option (List Char × Bool × Cursor)
  | 0, _, _, _ => none
  | fuel + 1, read, fold, cursor =>
    if cursor.seesAnyDocumentMark || cursor.sees '#' then some (read, fold.broken, cursor)
    else
      let (run, next) :=
        cursor.takeWhile fun c => !endsPlain flow c && !isStrayColon flow c
      if isStrayColon flow next then none
      else
        let read := if run.isEmpty then read else run.reverse ++ (fold.text.reverse ++ read)
        let fold := if run.isEmpty then fold else {}
        if next.isEnd || !next.gapAt 0 then some (read, fold.broken, next)
        else
          match fold.read indent next with
          | none => none
          | some (fold, next) =>
            if !flow && (next.column : Int) < indent then some (read, fold.broken, next)
            else plainFrom flow indent fuel read fold next

def plain (flow : Bool) (indent : Int) (cursor : Cursor) : Option (String × Bool × Cursor) :=
  (plainFrom flow indent (cursor.size + 2) [] {} cursor).map fun (read, broken, next) =>
    (String.ofList read.reverse, broken, next)

/-! ### Quoted scalars -/

def hexDigit? (c : Char) : Option Nat :=
  if c.isDigit then some (c.toNat - 48)
  else if 'a' ≤ c && c ≤ 'f' then some (c.toNat - 87)
  else if 'A' ≤ c && c ≤ 'F' then some (c.toNat - 55)
  else none

def hexNumber? (digits : List Char) : Option Nat :=
  digits.foldlM (fun value c => (hexDigit? c).map (16 * value + ·)) 0

def escaped? (c : Char) : Option Char :=
  match c with
  | '0' => some '\x00'
  | 'a' => some '\x07'
  | 'b' => some '\x08'
  | 't' => some '\t'
  | '\t' => some '\t'
  | 'n' => some '\n'
  | 'v' => some '\x0b'
  | 'f' => some '\x0c'
  | 'r' => some '\r'
  | 'e' => some '\x1b'
  | ' ' => some ' '
  | '"' => some '"'
  | '/' => some '/'
  | '\\' => some '\\'
  | 'N' => some '\u0085'
  | '_' => some '\u00a0'
  | 'L' => some '\u2028'
  | 'P' => some '\u2029'
  | _ => none

/-- The number of digits after `x`, `u` and `U`. -/
def escapeWidth? (c : Char) : Option Nat :=
  match c with
  | 'x' => some 2
  | 'u' => some 4
  | 'U' => some 8
  | _ => none

/-- The character of an escape whose backslash the cursor stands at. -/
def readEscape (cursor : Cursor) : Option (Char × Cursor) := do
  let mark ← cursor.at? 1
  match escaped? mark with
  | some c => pure (c, cursor.skipMany 2)
  | none =>
    let width ← escapeWidth? mark
    let digits := (cursor.rest.drop 2).take width
    if digits.length < width then none
    else
      let code ← hexNumber? digits
      if (0xD800 ≤ code && code ≤ 0xDFFF) || 0x10FFFF < code then none
      else pure (Char.ofNat code, cursor.skipMany (2 + width))

def quoteMark (single : Bool) : Char :=
  if single then '\x27' else '"'

/-- Reads up to white space or the closing mark, and tells whether a line break was escaped. -/
def quotedRun (single : Bool) : Nat → List Char → Cursor → Option (List Char × Bool × Cursor)
  | 0, _, _ => none
  | fuel + 1, read, cursor =>
    match cursor.peek with
    | none => some (read, false, cursor)
    | some c =>
      if isBlank c || isBreak c then some (read, false, cursor)
      else if c == quoteMark single then
        if single && cursor.at? 1 == some '\x27' then
          quotedRun single fuel ('\x27' :: read) (cursor.skipMany 2)
        else some (read, false, cursor)
      else if !single && c == '\\' then
        if (cursor.at? 1).any isBreak then some (read, true, cursor.skip.skipBreak)
        else
          match readEscape cursor with
          | some (char, next) => quotedRun single fuel (char :: read) next
          | none => none
      else quotedRun single fuel (c :: read) cursor.skip

def quotedFrom (single : Bool) : Nat → List Char → Cursor → Option (List Char × Cursor)
  | 0, _, _ => none
  | fuel + 1, read, cursor =>
    if cursor.seesAnyDocumentMark || cursor.isEnd then none
    else
      match quotedRun single (cursor.size + 1) read cursor with
      | none => none
      | some (read, escaped, next) =>
        if next.sees (quoteMark single) then some (read, next.skip)
        else
          match ({ broken := escaped } : Fold).read 0 next with
          | none => none
          | some (fold, next) => quotedFrom single fuel (fold.text.reverse ++ read) next

/-- The text of a quoted scalar whose opening mark the cursor stands at. -/
def quoted (single : Bool) (cursor : Cursor) : Option (String × Cursor) :=
  (quotedFrom single (cursor.size + 2) [] cursor.skip).map fun (read, next) =>
    (String.ofList read.reverse, next)

/-! ### Block scalars -/

inductive Chomp where
  | strip
  | clip
  | keep
  deriving DecidableEq

def chompMark? (c : Option Char) : Option Chomp :=
  match c with
  | some '+' => some .keep
  | some '-' => some .strip
  | _ => none

/-- Indentation of one to nine columns; a zero is malformed. -/
def indentMark? (c : Option Char) : Option Nat :=
  c.bind fun c => if c.isDigit then some (c.toNat - 48) else none

/-- The marks behind the sign of a block scalar, in either order. -/
def blockHeader (cursor : Cursor) : Option (Chomp × Nat × Cursor) :=
  match chompMark? cursor.peek with
  | some chomp =>
    match indentMark? cursor.skip.peek with
    | some 0 => none
    | some indent => some (chomp, indent, cursor.skip.skip)
    | none => some (chomp, 0, cursor.skip)
  | none =>
    match indentMark? cursor.peek with
    | some 0 => none
    | some indent =>
      match chompMark? cursor.skip.peek with
      | some chomp => some (chomp, indent, cursor.skip.skip)
      | none => some (.clip, indent, cursor.skip)
    | none => some (.clip, 0, cursor)

/-- Reads empty lines and the indentation behind them. An indentation of zero is still unknown. -/
def blockBreaks (indent : Nat) :
    Nat → Nat → List Char → Cursor → Option (Nat × List Char × Cursor)
  | 0, _, _, _ => none
  | fuel + 1, widest, breaks, cursor =>
    let inner := cursor.skipWhile fun c => (indent == 0 || c.column < indent) && c.sees ' '
    let widest := max widest inner.column
    if (indent == 0 || inner.column < indent) && inner.sees '\t' then none
    else if inner.seesBreak then
      let (taken, next) := inner.readBreak
      blockBreaks indent fuel widest (breaks ++ taken) next
    else some (widest, breaks, inner)

/-- The indentation of a block is known, or it is that of its widest line so far. -/
def blockIndent (outer : Int) (indent widest : Nat) : Nat :=
  if indent == 0 then max (max widest (outer + 1).toNat) 1 else indent

structure BlockDraft where
  read : List Char := []
  leading : List Char := []
  trailing : List Char := []
  afterBlank : Bool := false

/-- What a line break becomes before the next line. -/
def BlockDraft.joint (draft : BlockDraft) (literal beforeBlank : Bool) : List Char :=
  if !literal && draft.leading == ['\n'] && !draft.afterBlank && !beforeBlank then
    if draft.trailing.isEmpty then [' '] else draft.trailing
  else draft.leading ++ draft.trailing

def blockLines (literal : Bool) (indent : Nat) :
    Nat → BlockDraft → Cursor → Option (BlockDraft × Cursor)
  | 0, _, _ => none
  | fuel + 1, draft, cursor =>
    if cursor.column == indent && !cursor.isEnd then
      let blank := cursor.seesBlank
      let (line, next) := cursor.takeWhile fun c => !c.seesLineEnd
      let (leading, next) := next.readBreak
      match blockBreaks indent (next.size + 1) 0 [] next with
      | none => none
      | some (_, trailing, next) =>
        blockLines literal indent fuel
          { read := line.reverse ++ ((draft.joint literal blank).reverse ++ draft.read)
            leading, trailing, afterBlank := blank } next
    else some (draft, cursor)

def BlockDraft.finish (draft : BlockDraft) : Chomp → List Char
  | .strip => draft.read
  | .clip => draft.leading.reverse ++ draft.read
  | .keep => draft.trailing.reverse ++ (draft.leading.reverse ++ draft.read)

/-- The text of a block scalar whose sign the cursor stands at. -/
def block (literal : Bool) (outer : Int) (cursor : Cursor) : Option (String × Cursor) := do
  let (chomp, increment, next) ← blockHeader cursor.skip
  let next := next.skipBlanks.skipComment
  if !next.seesLineEnd then none
  else
    let next := next.skipBreak
    let known :=
      if increment == 0 then 0 else if 0 ≤ outer then outer.toNat + increment else increment
    let (widest, trailing, next) ← blockBreaks known (next.size + 1) 0 [] next
    let indent := blockIndent outer known widest
    let (draft, next) ← blockLines literal indent (next.size + 2) { trailing } next
    pure (String.ofList (draft.finish chomp).reverse, next)

end TypedClient.Notation.Yaml
