import TypedClient.Document.Schema
import TypedClient.Text.Blank

/-! API documents: paths with their operations, and reusable components. -/
namespace TypedClient

inductive Referable (α : Type) where
  | reference (path : String)
  | inline (value : α)

inductive Location where
  | path
  | query
  | header
  | cookie
  deriving DecidableEq

def Location.text : Location → String
  | .path => "path"
  | .query => "query"
  | .header => "header"
  | .cookie => "cookie"

structure Parameter where
  name : String
  location : Location
  required : Bool := false
  description : Option String := none
  deprecated : Bool := false
  schema : Option Schema := none

structure MediaType where
  schema : Option Schema := none

abbrev Content := List (String × MediaType)

structure RequestBody where
  description : Option String := none
  required : Bool := false
  content : Content := []

structure Response where
  description : Option String := none
  content : Content := []

structure Operation where
  operationId : Option String := none
  summary : Option String := none
  description : Option String := none
  tags : List String := []
  parameters : List (Referable Parameter) := []
  requestBody : Option (Referable RequestBody) := none
  responses : List (String × Referable Response) := []
  deprecated : Bool := false

structure PathItem where
  parameters : List (Referable Parameter) := []
  /-- Operations under the keys of their methods, in declaration order. -/
  operations : List (String × Operation) := []

structure Components where
  schemas : List (String × Schema) := []
  responses : List (String × Referable Response) := []
  parameters : List (String × Referable Parameter) := []
  requestBodies : List (String × Referable RequestBody) := []

structure Document where
  paths : List (String × PathItem) := []
  components : Components := {}

/-- Parameters of the media type and letter case do not matter. -/
def isJsonMedia (media : String) : Bool :=
  "application/json".toList.isPrefixOf
    ((Text.trim (media.toList.takeWhile (· != ';'))).map Char.toLower)

/-- The first JSON entry, or else the first entry. -/
def Content.preferred (content : Content) : Option MediaType :=
  ((content.find? fun entry => isJsonMedia entry.1).or content.head?).map (·.2)

def Content.schema (content : Content) : Option Schema :=
  content.preferred.bind (·.schema)

end TypedClient
