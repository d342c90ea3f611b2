import TypedClient.TypeExpr
import TypedClient.Quoting

/-!
Type expressions as text. A type is written as its alternatives, the members of a union or the type
itself, so that an index signature can be widened by the alternatives of the fields beside it.
-/
namespace TypedClient

def Scalar.text : Scalar → String
  | .number => "number"
  | .string => "string"
  | .boolean => "boolean"
  | .any => "any"
  | .void => "void"
  | .unknown => "unknown"

def Field.key {τ : Type} (field : Field τ) : String :=
  Quoting.propertyKey field.name ++ (if field.optional then "?" else "")

namespace TypeExpr

/-- Types that bind weaker than brackets and `&`. -/
def isCompound : TypeExpr → Bool
  | .union _ | .intersection _ | .nullable _ => true
  | .literals values => values.length > 1
  | _ => false

def isTop : TypeExpr → Bool
  | .scalar .any | .scalar .unknown => true
  | _ => false

/-- The type of an index signature, widened to admit the declared fields. -/
def indexType (fields : List (Field TypeExpr)) (index : TypeExpr) : TypeExpr :=
  if fields.isEmpty || index.isTop then index else unionOf (index :: fields.map (·.type))

abbrev Written := TypeExpr × String

def joinWritten (alternatives : List Written) : String :=
  String.intercalate " | " (alternatives.map (·.2))

def wrapped (written : Written) : String :=
  if written.1.isCompound then "(" ++ written.2 ++ ")" else written.2

def literalsText (values : List String) : String :=
  if values.isEmpty then "never" else String.intercalate " | " (values.map Quoting.literal)

/-- The text of the widened index type, from the alternatives of the index and of the fields. -/
def indexText (index : TypeExpr) (own : List Written) (fields : List (List Written)) : String :=
  if fields.isEmpty || index.isTop then joinWritten own
  else
    match distinct (fun a b => a.1.same b.1) (own ++ fields.flatten) with
    | [] => Scalar.any.text
    | alternatives => joinWritten alternatives

def objectText (parts : List String) : String :=
  if parts.isEmpty then "\x7b\x7d" else "\x7b " ++ String.intercalate "; " parts ++ " \x7d"

mutual

def alternatives : TypeExpr → List Written
  | .scalar kind => [(.scalar kind, kind.text)]
  | .literals values => [(.literals values, literalsText values)]
  | .array items =>
    [(.array items, wrapped (items, joinWritten (alternatives items)) ++ "[]")]
  | .object fields index =>
    let written := fieldAlternatives fields
    let declared := (fields.zip written).map fun (field, own) =>
      field.key ++ ": " ++ joinWritten own
    let opened := (indexAlternatives index).toList.map fun (type, own) =>
      "[key: string]: " ++ indexText type own written
    [(.object fields index, objectText (declared ++ opened))]
  | .union members => memberTexts members
  | .intersection members =>
    [(.intersection members, String.intercalate " & " ((memberTexts members).map wrapped))]
  | .named name => [(.named name, name)]
  | .nullable inner => [(.nullable inner, joinWritten (alternatives inner) ++ " | null")]
termination_by structural x => x

def memberTexts : List TypeExpr → List Written
  | [] => []
  | member :: rest => (member, joinWritten (alternatives member)) :: memberTexts rest
termination_by structural x => x

def fieldAlternatives : List (Field TypeExpr) → List (List Written)
  | [] => []
  | ⟨_, type, _, _⟩ :: rest => alternatives type :: fieldAlternatives rest
termination_by structural x => x

def indexAlternatives : Option TypeExpr → Option (TypeExpr × List Written)
  | none => none
  | some type => some (type, alternatives type)
termination_by structural x => x

end

def text (type : TypeExpr) : String :=
  joinWritten (alternatives type)

end TypeExpr
end TypedClient
