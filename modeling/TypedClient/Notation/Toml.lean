/-!
Lines of TOML with texts and empty values. Texts with values of other kinds are refused as a whole,
because nothing that is read from such lines takes one.
-/
namespace TypedClient.Notation.Toml

inductive Value where
  | text (value : String)
  /-- An empty list or table. -/
  | hollow
  /-- A table with one key, over an empty value. -/
  | boxed (key : String)
  deriving DecidableEq

inductive Line where
  | header (path : List String)
  | entry (path : List String) (value : Value)
  deriving DecidableEq

/-- Whether a character may stand in a comment or within a text. -/
def isPlain (c : Char) : Bool :=
  c == '\t' || (0x20 ≤ c.toNat && c.toNat ≤ 0x7E) || 0x80 ≤ c.toNat

def isBlank (c : Char) : Bool :=
  c == ' ' || c == '\t'

def isBare (c : Char) : Bool :=
  c.isAlphanum || c == '_' || c == '-'

def skipBlanks (text : List Char) : List Char :=
  text.dropWhile isBlank

/-- The rest after one of the characters that is expected next. -/
def after? (c : Char) : List Char → Option (List Char)
  | d :: rest => if c == d then some rest else none
  | [] => none

/-- The next line, if nothing but a comment is left of this one. -/
def endLine? (text : List Char) : Option (List Char) :=
  let text := skipBlanks text
  let text := if text.head? == some '#' then text.dropWhile isPlain else text
  match text with
  | [] => some []
  | '\n' :: rest => some rest
  | '\r' :: '\n' :: rest => some rest
  | _ => none

/-! ### Texts -/

/-- A text within one line, up to its closing quote. -/
def shortBody (quote : Char) (escapes escaped : Bool) : List Char → Option (List Char × List Char)
  | [] => none
  | c :: rest =>
    if c == quote && !escaped then some ([], rest)
    else if isPlain c then
      (shortBody quote escapes (escapes && !escaped && c == '\\') rest).map fun (body, rest) =>
        (c :: body, rest)
    else none

/-- A text over several lines. Up to two quotes before the closing ones belong to it. -/
def longBody (quote : Char) (escapes escaped : Bool) : List Char → Option (List Char × List Char)
  | [] => none
  | c :: rest =>
    if c == quote && !escaped && rest.take 2 == [quote, quote] then
      let extra := ((rest.drop 2).takeWhile (· == quote)).take 2
      some (extra, rest.drop (2 + extra.length))
    else if c == '\r' && rest.head? == some '\n' then longBody quote escapes escaped rest
    else if isPlain c || c == '\n' then
      (longBody quote escapes (escapes && !escaped && c == '\\') rest).map fun (body, rest) =>
        (c :: body, rest)
    else none

def hexValue? (c : Char) : Option Nat :=
  if c.isDigit then some (c.toNat - '0'.toNat)
  else if 'a' ≤ c && c ≤ 'f' then some (c.toNat - 'a'.toNat + 10)
  else if 'A' ≤ c && c ≤ 'F' then some (c.toNat - 'A'.toNat + 10)
  else none

/-- The character with a hexadecimal number. -/
def character? (digits : List Char) : Option Char := do
  let values ← digits.mapM hexValue?
  let code := values.foldl (fun code value => 16 * code + value) 0
  if code.isValidChar then some (Char.ofNat code) else none

def escape? : Char → Option Char
  | 'b' => some '\x08'
  | 't' => some '\t'
  | 'n' => some '\n'
  | 'f' => some '\x0c'
  | 'r' => some '\r'
  | '"' => some '"'
  | '\\' => some '\\'
  | _ => none

def isGap (c : Char) : Bool :=
  isBlank c || c == '\n'

/-- The text that an escaped text stands for. A backslash at the end of a line hides the line break
and all blanks and line breaks after it. -/
def unescape (text : List Char) : Option (List Char) :=
  match text with
  | [] => some []
  | '\\' :: 'u' :: a :: b :: c :: d :: rest => do
    let character ← character? [a, b, c, d]
    (unescape rest).map (character :: ·)
  | '\\' :: 'U' :: a :: b :: c :: d :: e :: f :: g :: h :: rest => do
    let character ← character? [a, b, c, d, e, f, g, h]
    (unescape rest).map (character :: ·)
  | '\\' :: c :: rest =>
    if (skipBlanks (c :: rest)).head? == some '\n' then unescape (rest.dropWhile isGap)
    else do
      let character ← escape? c
      (unescape rest).map (character :: ·)
  | ['\\'] => none
  | c :: rest => (unescape rest).map (c :: ·)
termination_by text.length
decreasing_by
  all_goals simp_wf
  all_goals have := (List.dropWhile_suffix (l := rest) isGap).length_le
  all_goals omega

def shortText? (quote : Char) (escapes : Bool) (text : List Char) :
    Option (String × List Char) := do
  let (body, rest) ← shortBody quote escapes false text
  let value ← if escapes then unescape body else some body
  some (String.ofList value, rest)

/-- A line break right after the opening quotes does not count. -/
def longText? (quote : Char) (escapes : Bool) (text : List Char) :
    Option (String × List Char) := do
  let text := match text with
    | '\n' :: rest => rest
    | '\r' :: '\n' :: rest => rest
    | text => text
  let (body, rest) ← longBody quote escapes false text
  let value ← if escapes then unescape body else some body
  some (String.ofList value, rest)

def text? : List Char → Option (String × List Char)
  | '"' :: '"' :: '"' :: rest => longText? '"' true rest
  | '\x27' :: '\x27' :: '\x27' :: rest => longText? '\x27' false rest
  | '"' :: rest => shortText? '"' true rest
  | '\x27' :: rest => shortText? '\x27' false rest
  | _ => none

/-! ### Keys -/

def key? (text : List Char) : Option (String × List Char) :=
  match text with
  | '"' :: rest => shortText? '"' true rest
  | '\x27' :: rest => shortText? '\x27' false rest
  | _ =>
    let bare := text.takeWhile isBare
    if bare.isEmpty then none else some (String.ofList bare, text.drop bare.length)

/-- Keys between dots, of which there are at most as many as the text has characters. -/
def keysWithin : Nat → List Char → Option (List String × List Char)
  | 0, _ => none
  | bound + 1, text => do
    let (key, rest) ← key? (skipBlanks text)
    match skipBlanks rest with
    | '.' :: rest => do
      let (path, rest) ← keysWithin bound rest
      some (key :: path, rest)
    | rest => some ([key], rest)

def keyPath? (text : List Char) : Option (List String × List Char) :=
  keysWithin text.length text

/-! ### Values -/

/-- What follows the blanks, line breaks and comments within a list. -/
def skipGaps (comment : Bool) : List Char → List Char
  | [] => []
  | '\n' :: rest => skipGaps false rest
  | '\r' :: '\n' :: rest => skipGaps false rest
  | c :: rest =>
    if comment && isPlain c then skipGaps true rest
    else if !comment && isBlank c then skipGaps false rest
    else if !comment && c == '#' then skipGaps true rest
    else c :: rest

def hollow? : List Char → Option (List Char)
  | '[' :: rest => after? ']' (skipGaps false rest)
  | '\x7b' :: rest => after? '\x7d' (skipBlanks rest)
  | _ => none

def boxed? (text : List Char) : Option (String × List Char) := do
  let rest ← after? '\x7b' text
  let (key, rest) ← key? (skipBlanks rest)
  let rest ← after? '=' (skipBlanks rest)
  let rest ← hollow? (skipBlanks rest)
  let rest ← after? '\x7d' (skipBlanks rest)
  some (key, rest)

def value? (text : List Char) : Option (Value × List Char) :=
  match text? text, hollow? text, boxed? text with
  | some (value, rest), _, _ => some (.text value, rest)
  | _, some rest, _ => some (.hollow, rest)
  | _, _, some (key, rest) => some (.boxed key, rest)
  | _, _, _ => none

/-! ### Lines -/

def header? (text : List Char) : Option (Line × List Char) := do
  let (path, rest) ← keyPath? text
  let rest ← after? ']' rest
  some (.header path, rest)

def entry? (text : List Char) : Option (Line × List Char) := do
  let (path, rest) ← keyPath? text
  let rest ← after? '=' rest
  let (value, rest) ← value? (skipBlanks rest)
  some (.entry path value, rest)

def linesWithin : Nat → List Char → Option (List Line)
  | _, [] => some []
  | 0, _ => none
  | bound + 1, text =>
    match endLine? text with
    | some rest => linesWithin bound rest
    | none => do
      let (line, rest) ← match skipBlanks text with
        | '[' :: rest => header? rest
        | text => entry? text
      let rest ← endLine? rest
      (linesWithin bound rest).map (line :: ·)

/-- The lines of a text, but for empty ones. A byte order mark may stand in front. -/
def parse (text : String) : Option (List Line) :=
  let text := match text.toList with
    | '\uFEFF' :: rest => rest
    | text => text
  linesWithin text.length text

end TypedClient.Notation.Toml
