import TypedClient.Text.Blank

/-! Documentation blocks of the generated code. -/
namespace TypedClient.DocComment
open Text

/-- The end mark of a comment is broken up inside it. -/
def breakEndMarks : List Char → List Char
  | [] => []
  | '*' :: '/' :: rest => '*' :: '\\' :: '/' :: breakEndMarks rest
  | c :: rest => c :: breakEndMarks rest

def dropTrailingEmpty : List (List Char) → List (List Char)
  | [] => []
  | line :: rest =>
    match dropTrailingEmpty rest with
    | [] => if line.isEmpty then [] else [line]
    | kept => line :: kept

/-- The lines of all texts without blank space at their ends and without empty lines around. -/
def bodyLines (texts : List String) : List (List Char) :=
  dropTrailingEmpty
    (((texts.flatMap fun text => lines text.toList).map trimEnd).dropWhile List.isEmpty)

def decorate (line : List Char) : List Char :=
  if line.isEmpty then [' ', '*'] else ' ' :: '*' :: ' ' :: breakEndMarks line

/-- One block for all texts, none if they are blank. -/
def ofTexts (texts : List String) : Option String :=
  match bodyLines texts with
  | [] => none
  | body =>
    some ("/**\n" ++ String.intercalate "\n" (body.map fun line => String.ofList (decorate line)) ++
      "\n */")

end TypedClient.DocComment
