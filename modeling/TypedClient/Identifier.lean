import TypedClient.Text.Case

/-! Identifiers of the generated language, made from names of the described API. -/
namespace TypedClient.Identifier
open Text

def reservedWords : List String := [
  "break", "case", "catch", "class", "const", "continue", "debugger", "default", "delete", "do",
  "else", "enum", "export", "extends", "false", "finally", "for", "function", "if", "import", "in",
  "instanceof", "new", "null", "return", "super", "switch", "this", "throw", "true", "try",
  "typeof", "var", "void", "while", "with", "yield", "let", "static", "implements", "interface",
  "package", "private", "protected", "public", "await", "async"]

def isReserved (name : String) : Bool :=
  reservedWords.contains name

def isSeparator (c : Char) : Bool :=
  c == '-' || c == '.' || c == ' '

def words (name : List Char) : List (List Char) :=
  name.splitOnP isSeparator

def guardDigit : List Char → List Char
  | c :: rest => if c.isDigit then '_' :: c :: rest else c :: rest
  | [] => []

/-- The first word keeps its case and every later word is capitalized. -/
def camelWords (name : List Char) : List Char :=
  match words name with
  | [] => []
  | first :: later => first ++ later.flatMap capitalize

/-- An identifier for a value: `pet-id` becomes `petId`. A leading digit and a reserved word get an
underscore in front. -/
def ofName (name : String) : String :=
  match camelWords name.toList with
  | [] => "_empty"
  | joined =>
    let guarded := String.ofList (guardDigit joined)
    if isReserved guarded then "_" ++ guarded else guarded

/-- An identifier for a type: `use-case` becomes `UseCase`. -/
def ofTypeKey (key : String) : String :=
  match (words key.toList).flatMap capitalize with
  | [] => "_Empty"
  | joined => String.ofList (guardDigit joined)

def capitalized (name : String) : String :=
  String.ofList (capitalize name.toList)

def uncapitalized (name : String) : String :=
  String.ofList (uncapitalize name.toList)

def snakeRest (c : Char) : List Char :=
  if c.isUpper then ['_', c.toLower] else if c == '-' then ['_'] else [c]

def snakeChars : List Char → List Char
  | [] => []
  | c :: rest =>
    (if c.isUpper then [c.toLower] else if c == '-' then ['_'] else [c]) ++ rest.flatMap snakeRest

/-- The form under which `itemId`, `item-id` and `item_id` are one name. -/
def snake (name : String) : String :=
  String.ofList (snakeChars name.toList)

end TypedClient.Identifier
