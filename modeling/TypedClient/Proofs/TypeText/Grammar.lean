import TypedClient.Text.Blank

/-!
The grammar of type texts. Brackets after a type bind tighter than `&`, and `&` binds tighter than `|`.
A text is scanned into tokens, and a reader with a stack of open brackets takes them one by one.
-/
namespace TypedClient.TypeText

/-! ### Trees -/

inductive Predefined where
  | number
  | string
  | boolean
  | any
  | void
  | unknown
  | null
  | never
  deriving DecidableEq

def Predefined.text : Predefined → String
  | .number => "number"
  | .string => "string"
  | .boolean => "boolean"
  | .any => "any"
  | .void => "void"
  | .unknown => "unknown"
  | .null => "null"
  | .never => "never"

def Predefined.all : List Predefined :=
  [.number, .string, .boolean, .any, .void, .unknown, .null, .never]

def Predefined.ofWord? (word : String) : Option Predefined :=
  all.find? (·.text == word)

/-- What stands before the colon of a member of an object type. -/
inductive Head where
  | property (name : String) (optional : Bool)
  /-- `[key: string]` -/
  | index
  deriving DecidableEq

inductive Tree where
  | predefined (type : Predefined)
  | name (name : String)
  | literal (text : String)
  | array (items : Tree)
  | object (members : List (Head × Tree))
  | union (branches : List Tree)
  | intersection (factors : List Tree)

namespace Tree

def ofWord (word : String) : Tree :=
  match Predefined.ofWord? word with
  | some word => .predefined word
  | none => .name word

/-- What stands between the `|` around it. A single factor is no intersection. -/
def ofFactors : List Tree → Tree
  | [factor] => factor
  | factors => .intersection factors

/-- A single branch is no union. -/
def ofBranches : List Tree → Tree
  | [branch] => branch
  | branches => .union branches

end Tree

/-! ### Tokens -/

inductive Token where
  | word (text : String)
  | literal (text : String)
  | openParen
  | closeParen
  | openBracket
  | closeBracket
  | openBrace
  | closeBrace
  | colon
  | semicolon
  | question
  | ampersand
  | bar
  deriving DecidableEq

def punctuation? : Char → Option Token
  | '(' => some .openParen
  | ')' => some .closeParen
  | '[' => some .openBracket
  | ']' => some .closeBracket
  | '\x7b' => some .openBrace
  | '\x7d' => some .closeBrace
  | ':' => some .colon
  | ';' => some .semicolon
  | '?' => some .question
  | '&' => some .ampersand
  | '|' => some .bar
  | _ => none

/-- Every character beyond ASCII that is no blank counts as a letter. -/
def isWordStart (c : Char) : Bool :=
  c.isAlpha || c == '_' || c == '$' || (128 ≤ c.toNat && !Text.isBlank c)

def isWordPart (c : Char) : Bool :=
  isWordStart c || c.isDigit

def isIdentifier (word : String) : Bool :=
  match word.toList with
  | [] => false
  | c :: rest => isWordStart c && rest.all isWordPart

/-- A scanner between tokens, or inside one of which it has read a part. -/
inductive Scanner where
  | between
  | word (read : List Char)
  | literal (read : List Char)
  /-- After a backslash. -/
  | escape (read : List Char)

namespace Scanner

def enter (c : Char) : Option (List Token × Scanner) :=
  if Text.isBlank c then some ([], .between)
  else if c == '"' then some ([], .literal [])
  else if isWordStart c then some ([], .word [c])
  else (punctuation? c).map fun token => ([token], .between)

/-- The tokens that end with a character. -/
def step : Scanner → Char → Option (List Token × Scanner)
  | .between, c => enter c
  | .word read, c =>
    if isWordPart c then some ([], .word (read ++ [c]))
    else (enter c).map fun entered => (.word (String.ofList read) :: entered.1, entered.2)
  | .literal read, c =>
    if c == '"' then some ([.literal (String.ofList read)], .between)
    else if c == '\\' then some ([], .escape read)
    else some ([], .literal (read ++ [c]))
  | .escape read, c => some ([], .literal (read ++ [c]))

def finish : Scanner → Option (List Token)
  | .between => some []
  | .word read => some [.word (String.ofList read)]
  | .literal _ | .escape _ => none

def scan : Scanner → List Char → Option (List Token)
  | scanner, [] => scanner.finish
  | scanner, c :: rest =>
    (scanner.step c).bind fun (tokens, next) => (scan next rest).map (tokens ++ ·)

end Scanner

/-! ### Reading -/

/-- The branches read so far, each with its factors, the last of all in front. -/
abbrev Groups := List (List Tree)

namespace Groups

def place (operand : Tree) : Groups → Groups
  | [] => [[operand]]
  | factors :: earlier => (operand :: factors) :: earlier

def tree (groups : Groups) : Tree :=
  .ofBranches (groups.map fun factors => .ofFactors factors.reverse).reverse

end Groups

/-- What an open bracket interrupts. -/
inductive Frame where
  | paren (outer : Groups)
  | member (outer : Groups) (members : List (Head × Tree)) (head : Head)

/-- What the reader is to meet next. -/
inductive Mode where
  | operand (groups : Groups)
  | operator (groups : Groups)
  /-- The end of brackets after an operand. -/
  | brackets (groups : Groups)
  /-- A member of an object type, or its end. -/
  | member (outer : Groups) (members : List (Head × Tree))
  | afterKey (outer : Groups) (members : List (Head × Tree)) (key : String) (optional : Bool)
  /-- The tokens of an index signature that are still to come. -/
  | signature (outer : Groups) (members : List (Head × Tree)) (expected : List Token)

structure Reader where
  stack : List Frame
  mode : Mode

namespace Reader

def initial : Reader :=
  ⟨[], .operand [[]]⟩

def typeOf (stack : List Frame) (outer : Groups) (members : List (Head × Tree)) (head : Head) :
    Reader :=
  ⟨.member outer members head :: stack, .operand [[]]⟩

def step : Reader → Token → Option Reader
  | ⟨stack, .operand groups⟩, .word text =>
    some ⟨stack, .operator (groups.place (.ofWord text))⟩
  | ⟨stack, .operand groups⟩, .literal text =>
    some ⟨stack, .operator (groups.place (.literal text))⟩
  | ⟨stack, .operand groups⟩, .openParen => some ⟨.paren groups :: stack, .operand [[]]⟩
  | ⟨stack, .operand groups⟩, .openBrace => some ⟨stack, .member groups []⟩
  | ⟨stack, .operator groups⟩, .ampersand => some ⟨stack, .operand groups⟩
  | ⟨stack, .operator groups⟩, .bar => some ⟨stack, .operand ([] :: groups)⟩
  | ⟨stack, .operator groups⟩, .openBracket => some ⟨stack, .brackets groups⟩
  | ⟨stack, .brackets ((operand :: factors) :: earlier)⟩, .closeBracket =>
    some ⟨stack, .operator ((.array operand :: factors) :: earlier)⟩
  | ⟨.paren outer :: stack, .operator groups⟩, .closeParen =>
    some ⟨stack, .operator (outer.place groups.tree)⟩
  | ⟨.member outer members head :: stack, .operator groups⟩, .semicolon =>
    some ⟨stack, .member outer (members ++ [(head, groups.tree)])⟩
  | ⟨.member outer members head :: stack, .operator groups⟩, .closeBrace =>
    some ⟨stack, .operator (outer.place (.object (members ++ [(head, groups.tree)])))⟩
  | ⟨stack, .member outer members⟩, .closeBrace =>
    some ⟨stack, .operator (outer.place (.object members))⟩
  | ⟨stack, .member outer members⟩, .word key => some ⟨stack, .afterKey outer members key false⟩
  | ⟨stack, .member outer members⟩, .literal key => some ⟨stack, .afterKey outer members key false⟩
  | ⟨stack, .member outer members⟩, .openBracket =>
    some ⟨stack, .signature outer members
      [.word "key", .colon, .word "string", .closeBracket, .colon]⟩
  | ⟨stack, .afterKey outer members key false⟩, .question =>
    some ⟨stack, .afterKey outer members key true⟩
  | ⟨stack, .afterKey outer members key optional⟩, .colon =>
    some (typeOf stack outer members (.property key optional))
  | ⟨stack, .signature outer members (expected :: later)⟩, token =>
    if token = expected then
      some (if later.isEmpty then typeOf stack outer members .index
        else ⟨stack, .signature outer members later⟩)
    else none
  | _, _ => none

def finish : Reader → Option Tree
  | ⟨[], .operator groups⟩ => some groups.tree
  | _ => none

end Reader

def parse (text : String) : Option Tree := do
  let tokens ← Scanner.scan .between text.toList
  let reader ← tokens.foldlM Reader.step .initial
  reader.finish

end TypedClient.TypeText
