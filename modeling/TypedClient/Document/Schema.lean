import TypedClient.Document.Entries
import TypedClient.Number.Shortest

/-! Schema nodes and their classification. -/
namespace TypedClient

/-- The keyword `type`: one name, or a list of names. -/
inductive TypeNames where
  | single (name : String)
  | several (names : List String)
  deriving DecidableEq

inductive EnumValue where
  | text (value : String)
  | integer (value : Int)
  | float (value : Binary64)
  | flag (value : Bool)
  | null
  deriving DecidableEq

structure Discriminator where
  property : String
  /-- Variant names with references to their schemas, or bare schema keys. -/
  mapping : List (String × String) := []
  deriving DecidableEq

/-- The keyword `additionalProperties`: a flag, or a schema for the values. -/
inductive Additional (σ : Type) where
  | flag (allowed : Bool)
  | values (schema : σ)

/-- The keywords that hold no further schema. -/
structure Facets where
  type : Option TypeNames := none
  ref : Option String := none
  format : Option String := none
  description : Option String := none
  required : List String := []
  enum : Option (List EnumValue) := none
  discriminator : Option Discriminator := none
  nullable : Bool := false
  deriving DecidableEq

structure Schema extends Facets where
  properties : Option (List (String × Schema)) := none
  items : Option Schema := none
  allOf : Option (List Schema) := none
  oneOf : Option (List Schema) := none
  anyOf : Option (List Schema) := none
  additional : Option (Additional Schema) := none

namespace Facets

/-- The declared type names other than `null`. -/
def nonNullTypes (facets : Facets) : List String :=
  match facets.type with
  | none => []
  | some (.single name) => if name == "null" then [] else [name]
  | some (.several names) => names.filter (· != "null")

def isNullType (facets : Facets) : Bool :=
  match facets.type with
  | none => false
  | some (.single name) => name == "null"
  | some (.several names) => !names.isEmpty && names.all (· == "null")

/-- Whether `null` is admitted beside the type. A reference never says so itself. -/
def isNullable (facets : Facets) : Bool :=
  facets.ref.isNone &&
    (facets.nullable ||
      match facets.type with
      | some (.several names) => names.contains "null" && names.length > 1
      | _ => false)

end Facets

inductive Composition where
  | allOf
  | oneOf
  | anyOf
  deriving DecidableEq

/-- The keyword that decides how a node is read. -/
inductive Shape where
  | reference (target : String)
  | composite (composition : Composition)
  | array
  | object
  | primitive (kind : String)
  | multiType
  | empty
  deriving DecidableEq

namespace Schema

def members (schema : Schema) : Composition → Option (List Schema)
  | .allOf => schema.allOf
  | .oneOf => schema.oneOf
  | .anyOf => schema.anyOf

/-- The shape of a node whose `type` names nothing but `null`. -/
def untypedShape (schema : Schema) : Shape :=
  if schema.properties.isSome || schema.additional.isSome then .object
  else if schema.items.isSome then .array
  else if schema.enum.isSome then .primitive "string"
  else if schema.isNullType then .primitive "null"
  else .empty

/-- A reference wins over all siblings, and composition wins over `type`. -/
def shape (schema : Schema) : Shape :=
  match schema.ref with
  | some target => .reference target
  | none =>
    if schema.allOf.isSome then .composite .allOf
    else if schema.oneOf.isSome then .composite .oneOf
    else if schema.anyOf.isSome then .composite .anyOf
    else
      match schema.nonNullTypes with
      | [] => schema.untypedShape
      | ["array"] => .array
      | ["object"] => .object
      | [kind] => .primitive kind
      | _ => .multiType

end Schema
end TypedClient
