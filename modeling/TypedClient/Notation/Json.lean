import TypedClient.Notation.Node

/-!
JSON texts as nodes. Characters are read one by one; what can no longer be read ends in a broken node
inside all collections that are still open, so that the part before it keeps its meaning.
-/
namespace TypedClient.Notation.Json

/-! ### Numbers -/

/-- The parts of a number; the exponent is signed. -/
structure Numeral where
  negative : Bool
  whole : List Nat
  fraction : Option (List Nat)
  exponent : Option Int

def digitValue (c : Char) : Nat :=
  c.toNat - 48

def naturalOf (digits : List Nat) : Nat :=
  digits.foldl (fun value digit => 10 * value + digit) 0

def fractionOf : List Char → Option (Option (List Nat) × List Char)
  | '.' :: rest =>
    let digits := rest.takeWhile Char.isDigit
    if digits.isEmpty then none else some (some (digits.map digitValue), rest.dropWhile Char.isDigit)
  | rest => some (none, rest)

def exponentDigits (negative : Bool) (text : List Char) : Option (Option Int) :=
  if text.isEmpty || !text.all Char.isDigit then none
  else
    let value : Int := naturalOf (text.map digitValue)
    some (some (if negative then -value else value))

def exponentOf : List Char → Option (Option Int)
  | [] => some none
  | mark :: rest =>
    if mark == 'e' || mark == 'E' then
      match rest with
      | '-' :: digits => exponentDigits true digits
      | '+' :: digits => exponentDigits false digits
      | digits => exponentDigits false digits
    else none

/-- A leading zero stands alone, and a point or an exponent mark is followed by digits. -/
def Numeral.parse (text : List Char) : Option Numeral := do
  let negative := text.head? == some '-'
  let text := if negative then text.tail else text
  let whole := text.takeWhile Char.isDigit
  if whole.isEmpty || (whole.head? == some '0' && whole.length > 1) then none
  else
    let (fraction, rest) ← fractionOf (text.dropWhile Char.isDigit)
    let exponent ← exponentOf rest
    pure ⟨negative, whole.map digitValue, fraction, exponent⟩

/-- Takes in digits as long as the number fits 64 bits. -/
def absorb (value : Nat) : List Nat → Nat × List Nat
  | [] => (value, [])
  | digit :: rest =>
    if 10 * value + digit < 0x10000000000000000 then absorb (10 * value + digit) rest
    else (value, digit :: rest)

/-- The significant digits that fit 64 bits, scaled; further digits only count as places. -/
def Numeral.float? (numeral : Numeral) : Option Binary64 :=
  let (whole, left) := absorb 0 numeral.whole
  let fraction := numeral.fraction.getD []
  let (digits, ignored) := absorb whole fraction
  let places : Int := (left.length : Int) - ((fraction.length : Int) - ignored.length)
  let exponent := places + numeral.exponent.getD 0
  (Binary64.scale 8 (Binary64.ofRatio false digits 1) exponent).map (·.withSign numeral.negative)

/-- Whole numbers of 64 bits are integers, save for the negative zero; none out of range. -/
def Numeral.atom? (numeral : Numeral) : Option Atom :=
  let whole := naturalOf numeral.whole
  let fits :=
    if numeral.negative then whole ≠ 0 && whole ≤ 0x8000000000000000
    else whole < 0x10000000000000000
  let isInteger := numeral.fraction.isNone && numeral.exponent.isNone && fits
  if isInteger then some (.integer (if numeral.negative then -whole else whole))
  else numeral.float?.map .float

/-! ### Tokens -/

inductive Token where
  | openList
  | closeList
  | openMap
  | closeMap
  | colon
  | comma
  /-- None for a text with a lone surrogate. -/
  | text (content : Option String)
  | atom (leaf : Leaf)
  | bad

/-- A text as far as it is read, backwards; half of a surrogate pair waits for the other half. -/
structure TextDraft where
  chars : List Char := []
  high : Option Nat := none
  valid : Bool := true

namespace TextDraft

def push (draft : TextDraft) (c : Char) : TextDraft :=
  ⟨c :: draft.chars, none, draft.valid && draft.high.isNone⟩

def pushUnit (draft : TextDraft) (unit : Nat) : TextDraft :=
  if 0xD800 ≤ unit && unit < 0xDC00 then
    { draft with high := some unit, valid := draft.valid && draft.high.isNone }
  else if 0xDC00 ≤ unit && unit < 0xE000 then
    match draft.high with
    | some high =>
      { draft with
        chars := Char.ofNat (0x10000 + (high - 0xD800) * 0x400 + (unit - 0xDC00)) :: draft.chars
        high := none }
    | none => { draft with valid := false }
  else draft.push (Char.ofNat unit)

def content (draft : TextDraft) : Option String :=
  if draft.valid && draft.high.isNone then some (String.ofList draft.chars.reverse) else none

end TextDraft

/-- What is being read. -/
inductive Lexer where
  | between
  | word (left : List Char) (atom : Atom)
  | number (read : List Char)
  | inText (draft : TextDraft)
  | escape (draft : TextDraft)
  | hex (draft : TextDraft) (left : Nat) (unit : Nat)

def hexValue? (c : Char) : Option Nat :=
  if c.isDigit then some (c.toNat - 48)
  else if 'a' ≤ c && c ≤ 'f' then some (c.toNat - 87)
  else if 'A' ≤ c && c ≤ 'F' then some (c.toNat - 55)
  else none

def isSpace (c : Char) : Bool :=
  c == ' ' || c == '\n' || c == '\t' || c == '\r'

def isNumberPart (c : Char) : Bool :=
  c.isDigit || c == '-' || c == '+' || c == '.' || c == 'e' || c == 'E'

def numberToken (read : List Char) : Token :=
  match Numeral.parse read.reverse with
  | some numeral =>
    match numeral.atom? with
    | some atom => .atom (.ofAtom atom)
    | none => .atom .unreadable
  | none => .bad

/-- The start of a token, or a whole one. -/
def start (c : Char) : Lexer × List Token :=
  if isSpace c then (.between, [])
  else if c == '[' then (.between, [.openList])
  else if c == ']' then (.between, [.closeList])
  else if c == '\x7b' then (.between, [.openMap])
  else if c == '\x7d' then (.between, [.closeMap])
  else if c == ':' then (.between, [.colon])
  else if c == ',' then (.between, [.comma])
  else if c == '"' then (.inText {}, [])
  else if c == 't' then (.word ['r', 'u', 'e'] (.flag true), [])
  else if c == 'f' then (.word ['a', 'l', 's', 'e'] (.flag false), [])
  else if c == 'n' then (.word ['u', 'l', 'l'] .null, [])
  else if c.isDigit || c == '-' then (.number [c], [])
  else (.between, [.bad])

def escaped? (c : Char) : Option Char :=
  match c with
  | '"' => some '"'
  | '\\' => some '\\'
  | '/' => some '/'
  | 'b' => some '\x08'
  | 'f' => some '\x0c'
  | 'n' => some '\n'
  | 'r' => some '\r'
  | 't' => some '\t'
  | _ => none

def Lexer.step (lexer : Lexer) (c : Char) : Lexer × List Token :=
  match lexer with
  | .between => start c
  | .word [] atom => (.between, [.atom (.ofAtom atom), .bad])
  | .word [last] atom => if c == last then (.between, [.atom (.ofAtom atom)]) else (.between, [.bad])
  | .word (next :: left) atom =>
    if c == next then (.word left atom, []) else (.between, [.bad])
  | .number read =>
    if isNumberPart c then (.number (c :: read), [])
    else
      let (after, tokens) := start c
      (after, numberToken read :: tokens)
  | .inText draft =>
    if c == '"' then (.between, [.text draft.content])
    else if c == '\\' then (.escape draft, [])
    else if c.toNat < 0x20 then (.between, [.bad])
    else (.inText (draft.push c), [])
  | .escape draft =>
    if c == 'u' then (.hex draft 3 0, [])
    else
      match escaped? c with
      | some char => (.inText (draft.push char), [])
      | none => (.between, [.bad])
  | .hex draft left unit =>
    match hexValue? c with
    | none => (.between, [.bad])
    | some value =>
      match left with
      | 0 => (.inText (draft.pushUnit (16 * unit + value)), [])
      | left + 1 => (.hex draft left (16 * unit + value), [])

/-- The last token of a text. -/
def Lexer.finish : Lexer → List Token
  | .between => []
  | .number read => [numberToken read]
  | _ => [.bad]

/-! ### Collections -/

/-- An open collection, backwards. -/
inductive Frame where
  | list (items : List Node)
  | map (entries : List (Node × Node)) (key : Option Node)

inductive Expecting where
  | value
  | valueOrClose
  | key
  | keyOrClose
  | colon
  | commaOrClose
  | nothing
  deriving DecidableEq

structure Builder where
  frames : List Frame := []
  expecting : Expecting := .value
  root : Option Node := none
  /-- Whether something follows the root, or the root is broken. -/
  stopped : Bool := false

namespace Builder

/-- The greatest number of collections around a value that is read. -/
def maxDepth : Nat := 127

def place (builder : Builder) (node : Node) : Builder :=
  match builder.frames with
  | [] => { builder with root := some node, expecting := .nothing }
  | .list items :: outer =>
    { builder with frames := .list (node :: items) :: outer, expecting := .commaOrClose }
  | .map entries key :: outer =>
    { builder with
      frames := .map ((key.getD .unreadable, node) :: entries) none :: outer
      expecting := .commaOrClose }

def Frame.node : Frame → Node
  | .list items => .list true items.reverse
  | .map entries _ => .map entries.reverse

/-- Closes the innermost collection. One that lies too deep can only be passed over. -/
def close (builder : Builder) : Builder :=
  match builder.frames with
  | [] => builder
  | frame :: outer =>
    let node := if (builder.frames.drop maxDepth).isEmpty then Frame.node frame else .unreadable
    { builder with frames := outer }.place node

def Frame.broken : Frame → Node → Node
  | .list items, node => .list true (node :: items).reverse
  | .map entries key, node => .map ((key.getD .unreadable, node) :: entries).reverse

/-- Everything read so far, with a broken node at the end. -/
def breakOff (builder : Builder) : Builder :=
  match builder.root with
  | some _ => { builder with stopped := true }
  | none =>
    { builder with
      root := some (builder.frames.foldl (fun node frame => Frame.broken frame node) .broken)
      stopped := true }

def takesValue (builder : Builder) : Bool :=
  builder.expecting == .value || builder.expecting == .valueOrClose

def takesKey (builder : Builder) : Bool :=
  builder.expecting == .key || builder.expecting == .keyOrClose

def setKey (builder : Builder) (key : Node) : Builder :=
  match builder.frames with
  | .map entries _ :: outer =>
    { builder with frames := .map entries (some key) :: outer, expecting := .colon }
  | _ => builder.breakOff

def leafOfText (content : Option String) : Leaf :=
  match content with
  | some text => .ofAtom (.text text)
  | none => .unreadable

def closesList (builder : Builder) : Bool :=
  match builder.frames with
  | .list _ :: _ => builder.expecting == .commaOrClose || builder.expecting == .valueOrClose
  | _ => false

def closesMap (builder : Builder) : Bool :=
  match builder.frames with
  | .map .. :: _ => builder.expecting == .commaOrClose || builder.expecting == .keyOrClose
  | _ => false

def afterComma (builder : Builder) : Builder :=
  match builder.frames with
  | .list _ :: _ => { builder with expecting := .value }
  | .map .. :: _ => { builder with expecting := .key }
  | [] => builder.breakOff

def feed (builder : Builder) (token : Token) : Builder :=
  if builder.stopped then builder
  else
    match token with
    | .openList =>
      if builder.takesValue then
        { builder with frames := .list [] :: builder.frames, expecting := .valueOrClose }
      else builder.breakOff
    | .openMap =>
      if builder.takesValue then
        { builder with frames := .map [] none :: builder.frames, expecting := .keyOrClose }
      else builder.breakOff
    | .closeList => if builder.closesList then builder.close else builder.breakOff
    | .closeMap => if builder.closesMap then builder.close else builder.breakOff
    | .colon =>
      if builder.expecting == .colon then { builder with expecting := .value }
      else builder.breakOff
    | .comma =>
      if builder.expecting == .commaOrClose then builder.afterComma else builder.breakOff
    | .text content =>
      if builder.takesKey then builder.setKey (.scalar (leafOfText content))
      else if builder.takesValue then builder.place (.scalar (leafOfText content))
      else builder.breakOff
    | .atom leaf =>
      if builder.takesValue then builder.place (.scalar leaf) else builder.breakOff
    | .bad => builder.breakOff

end Builder

def step (state : Lexer × Builder) (c : Char) : Lexer × Builder :=
  if state.2.stopped then state
  else
    let (lexer, tokens) := state.1.step c
    (lexer, tokens.foldl Builder.feed state.2)

def parse (text : String) : Parsed :=
  let (lexer, builder) := text.toList.foldl step (.between, {})
  let builder := if builder.stopped then builder else lexer.finish.foldl Builder.feed builder
  match builder.root with
  | some root => { root, complete := !builder.stopped }
  | none => { root := builder.breakOff.root.getD .broken, complete := false }

end TypedClient.Notation.Json
