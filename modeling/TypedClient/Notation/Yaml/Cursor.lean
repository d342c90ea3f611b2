/-! Positions in a YAML text, and its classes of characters. -/
namespace TypedClient.Notation.Yaml

def isBreak (c : Char) : Bool :=
  c == '\n' || c == '\r' || c == '\u0085' || c == '\u2028' || c == '\u2029'

def isBlank (c : Char) : Bool :=
  c == ' ' || c == '\t'

def isWord (c : Char) : Bool :=
  c.isAlphanum || c == '_' || c == '-'

/-- The characters that may stand in a text at all. -/
def isPrintable (c : Char) : Bool :=
  let code := c.toNat
  code == 0x09 || code == 0x0A || code == 0x0D || (0x20 ≤ code && code ≤ 0x7E) || code == 0x85 ||
    (0xA0 ≤ code && code ≤ 0xD7FF) || (0xE000 ≤ code && code ≤ 0xFFFD) || 0x10000 ≤ code

/-- Texts are checked in blocks of whole characters that fill at most so many bytes. -/
def blockSize : Nat := 16384

structure Intake where
  /-- Those of full blocks, backwards. -/
  sound : List Char := []
  /-- Those of the last block, backwards. -/
  block : List Char := []
  /-- The length of the last block in bytes. -/
  size : Nat := 0
  /-- Whether the last block holds a character that may not stand in a text, and so does not count. -/
  spoiled : Bool := false

namespace Intake

def feed (intake : Intake) (c : Char) : Intake :=
  if intake.spoiled then intake
  else
    let spoiled := !isPrintable c
    if blockSize < intake.size + c.utf8Size then
      { sound := intake.block ++ intake.sound, block := [c], size := c.utf8Size, spoiled }
    else { intake with block := c :: intake.block, size := intake.size + c.utf8Size, spoiled }

def ofText (text : String) : Intake :=
  text.toList.foldl feed {}

def chars (intake : Intake) : List Char :=
  (if intake.spoiled then intake.sound else intake.block ++ intake.sound).reverse

end Intake

structure Cursor where
  rest : List Char
  /-- The length of the whole text, which bounds every reading of the rest. -/
  size : Nat
  index : Nat := 0
  line : Nat := 0
  column : Nat := 0

namespace Cursor

def at? (cursor : Cursor) (n : Nat) : Option Char :=
  cursor.rest[n]?

def peek (cursor : Cursor) : Option Char :=
  cursor.rest.head?

def sees (cursor : Cursor) (c : Char) : Bool :=
  cursor.peek == some c

def isEnd (cursor : Cursor) : Bool :=
  cursor.rest.isEmpty

def seesBreak (cursor : Cursor) : Bool :=
  cursor.peek.any isBreak

def seesBlank (cursor : Cursor) : Bool :=
  cursor.peek.any isBlank

/-- A blank, a line break or the end. -/
def gapAt (cursor : Cursor) (n : Nat) : Bool :=
  (cursor.at? n).all fun c => isBlank c || isBreak c

def seesLineEnd (cursor : Cursor) : Bool :=
  cursor.peek.all isBreak

def skip (cursor : Cursor) : Cursor :=
  match cursor.rest with
  | [] => cursor
  | c :: rest =>
    { cursor with rest, index := cursor.index + c.utf8Size, column := cursor.column + 1 }

def skipMany (cursor : Cursor) : Nat → Cursor
  | 0 => cursor
  | n + 1 => cursor.skip.skipMany n

/-- Reads a line break. All breaks within a line count as line feeds. -/
def readBreak (cursor : Cursor) : List Char × Cursor :=
  let next (rest : List Char) (width : Nat) : Cursor :=
    ⟨rest, cursor.size, cursor.index + width, cursor.line + 1, 0⟩
  match cursor.rest with
  | '\r' :: '\n' :: rest => (['\n'], next rest 2)
  | c :: rest =>
    if c == '\u2028' || c == '\u2029' then ([c], next rest c.utf8Size)
    else if isBreak c then (['\n'], next rest c.utf8Size)
    else ([], cursor)
  | [] => ([], cursor)

def skipBreak (cursor : Cursor) : Cursor :=
  cursor.readBreak.2

def takeWhileFrom (p : Cursor → Bool) (cursor : Cursor) (taken : List Char) :
    List Char → List Char × Cursor
  | [] => (taken.reverse, cursor)
  | c :: rest =>
    if p cursor then
      takeWhileFrom p
        { cursor with rest, index := cursor.index + c.utf8Size, column := cursor.column + 1 }
        (c :: taken) rest
    else (taken.reverse, cursor)

/-- The characters within a line up to the first place that fails a test. -/
def takeWhile (p : Cursor → Bool) (cursor : Cursor) : List Char × Cursor :=
  takeWhileFrom p cursor [] cursor.rest

def skipWhile (p : Cursor → Bool) (cursor : Cursor) : Cursor :=
  (cursor.takeWhile p).2

def skipBlanks (cursor : Cursor) : Cursor :=
  cursor.skipWhile seesBlank

def skipComment (cursor : Cursor) : Cursor :=
  if cursor.sees '#' then cursor.skipWhile fun c => !c.seesLineEnd else cursor

/-- The marks between documents stand alone at the start of a line. -/
def seesDocumentMark (cursor : Cursor) (mark : Char) : Bool :=
  cursor.column == 0 && cursor.rest.take 3 == [mark, mark, mark] && cursor.gapAt 3

def seesAnyDocumentMark (cursor : Cursor) : Bool :=
  cursor.seesDocumentMark '-' || cursor.seesDocumentMark '.'

end Cursor
end TypedClient.Notation.Yaml
