import TypedClient.Script.Types
import TypedClient.Registry
import TypedClient.DocComment

/-! Declarations of types and functions, and calls, as text. -/
namespace TypedClient

/-- A documentation block indented by one level, line by line. -/
def indentedDoc (text : String) : String :=
  match DocComment.ofTexts [text] with
  | some block =>
    String.join ((Text.lines block.toList).map fun line => "  " ++ String.ofList line ++ "\n")
  | none => ""

namespace Definition

def fieldText (field : Field TypeExpr) : String :=
  (field.doc.map indentedDoc).getD "" ++ "  " ++ field.key ++ ": " ++ field.type.text ++ ";\n"

def indexLine (fields : List (Field TypeExpr)) (index : TypeExpr) : String :=
  "  [key: string]: " ++ (TypeExpr.indexType fields index).text ++ ";\n"

def body (name : String) : TypeExpr → String
  | .object fields index =>
    "export interface " ++ name ++ " \x7b\n" ++ String.join (fields.map fieldText) ++
      (index.map (indexLine fields)).getD "" ++ "\x7d\n"
  | type => "export type " ++ name ++ " = " ++ type.text ++ ";\n"

def text (definition : Definition) : String :=
  (definition.doc.map (· ++ "\n")).getD "" ++ body definition.name definition.type

end Definition

structure Argument where
  name : String
  type : TypeExpr
  optional : Bool := false

def Argument.text (argument : Argument) : String :=
  argument.name ++ (if argument.optional then "?" else "") ++ ": " ++ argument.type.text

def argumentList (arguments : List Argument) : String :=
  String.intercalate ", " (arguments.map Argument.text)

structure Call where
  callee : String
  arguments : List String

def Call.text (call : Call) : String :=
  call.callee ++ "(" ++ String.intercalate ", " call.arguments ++ ")"

structure FunctionDecl where
  doc : String := ""
  name : String
  arguments : List Argument
  returns : Option String := none
  body : List String
  async : Bool := false

namespace FunctionDecl

def line (text : String) : String :=
  if text.isEmpty then "\n" else "  " ++ text ++ "\n"

def text (decl : FunctionDecl) : String :=
  (if decl.doc.isEmpty then "" else decl.doc ++ "\n") ++
    "export " ++ (if decl.async then "async " else "") ++ "function " ++ decl.name ++
    "(" ++ argumentList decl.arguments ++ ")" ++ (decl.returns.map (": " ++ ·)).getD "" ++
    " \x7b\n" ++ String.join (decl.body.map line) ++ "\x7d\n"

end FunctionDecl
end TypedClient
