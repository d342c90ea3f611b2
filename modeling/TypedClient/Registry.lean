import TypedClient.TypeExpr

/-!
Named definitions in the order of their first registration. A name taken over from another source
is recorded as a collision and the later definition stands.
-/
namespace TypedClient

structure Definition where
  name : String
  type : TypeExpr
  doc : Option String := none

/-- An object type is declared as an interface, every other type as an alias. -/
inductive Declaration where
  | alias
  | structural
  deriving DecidableEq

def Definition.declaration (definition : Definition) : Declaration :=
  if definition.type.isObject then .structural else .alias

inductive Role where
  | queryParams
  | requestBody
  | response
  deriving DecidableEq

def Role.describe : Role → String
  | .queryParams => "query parameters"
  | .requestBody => "request body"
  | .response => "success response"

inductive Source where
  | schema (key : String)
  | response (key : String)
  | requestBody (key : String)
  | operation (name : String) (role : Role)
  deriving DecidableEq

def Source.describe : Source → String
  | .schema key => "#/components/schemas/" ++ key
  | .response key => "#/components/responses/" ++ key
  | .requestBody key => "#/components/requestBodies/" ++ key
  | .operation name role => role.describe ++ " of operation " ++ name

structure Collision where
  name : String
  previous : Source
  replacement : Source
  deriving DecidableEq

def Collision.message (collision : Collision) : String :=
  "type name `" ++ collision.name ++ "` from " ++ collision.replacement.describe ++
    " overwrites the one from " ++ collision.previous.describe

structure Registration where
  definition : Definition
  source : Source

structure Registry where
  entries : List Registration := []
  collisions : List Collision := []

namespace Registry

def find? (registry : Registry) (name : String) : Option Registration :=
  registry.entries.find? (·.definition.name == name)

def get? (registry : Registry) (name : String) : Option Definition :=
  (registry.find? name).map (·.definition)

def source? (registry : Registry) (name : String) : Option Source :=
  (registry.find? name).map (·.source)

def definitions (registry : Registry) : List Definition :=
  registry.entries.map (·.definition)

def size (registry : Registry) : Nat :=
  registry.entries.length

/-- The collision that registering under this name from this source would be. -/
def collision? (registry : Registry) (name : String) (source : Source) : Option Collision :=
  match registry.source? name with
  | some previous => if previous = source then none else some ⟨name, previous, source⟩
  | none => none

/-- A replaced definition keeps its place. -/
def insert (registry : Registry) (entry : Registration) : Registry where
  entries :=
    if (registry.find? entry.definition.name).isSome then
      registry.entries.map fun held =>
        if held.definition.name == entry.definition.name then entry else held
    else registry.entries ++ [entry]
  collisions :=
    registry.collisions ++ (registry.collision? entry.definition.name entry.source).toList

end Registry
end TypedClient
