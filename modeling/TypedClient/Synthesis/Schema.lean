import TypedClient.Reference
import TypedClient.Event

/-!
Type expressions of schema nodes. A reference becomes a name on sight, so that only the structure in
place is walked. The place of a node is carried along for reports and never changes the type.
-/
namespace TypedClient

abbrev Synthesis := Traced ReferenceError

/-- The string literal that an entry becomes; `null` becomes none. -/
def EnumValue.literal? : EnumValue → Option String
  | .text value => some value
  | .integer value => some (toString value)
  | .float value => some value.text
  | .flag value => some (if value then "true" else "false")
  | .null => none

namespace Schema

def kindType (place kind : String) : Synthesis TypeExpr :=
  if ["integer", "long", "float", "double", "number"].contains kind then
    pure (.scalar .number)
  else if kind == "boolean" then pure (.scalar .boolean)
  else if ["string", "byte", "binary", "date", "dateTime", "date-time", "password"].contains kind then
    pure (.scalar .string)
  else if kind == "null" then do
    Traced.report (.nullTypeWidened place)
    pure .any
  else do
    Traced.report (.typeUnrecognized place kind)
    pure .any

def kindTypes (place : String) : List String → Synthesis (List TypeExpr)
  | [] => pure []
  | kind :: rest => do
    let type ← kindType place kind
    return type :: (← kindTypes place rest)

def enumType (values : List EnumValue) : TypeExpr :=
  let literals := TypeExpr.literalsOf (values.filterMap EnumValue.literal?)
  if values.contains .null then literals.orNull else literals

/-- An enumeration counts only where its values are strings. -/
def primitiveType (place kind : String) (values : Option (List EnumValue)) :
    Synthesis TypeExpr := do
  let base ← kindType place kind
  match values with
  | some values => pure (if base.same (.scalar .string) then enumType values else base)
  | none => pure base

/-- Without declared properties an object is an open map, unless it is explicitly closed. -/
def objectType (additional : Option (Additional Schema)) (index : Option TypeExpr) :
    Option (List (Field TypeExpr)) → TypeExpr
  | some fields => .object fields index
  | none =>
    match additional with
    | some (.flag false) => .object [] none
    | _ => .object [] (some (index.getD .any))

def orNullIf (nullable : Bool) (type : TypeExpr) : TypeExpr :=
  if nullable then type.orNull else type

def admitsNull (members : Option (List Schema)) : Bool :=
  (members.getD []).any (·.isNullType)

mutual

def synthesize (resolver : Resolver) (place : String) : Schema → Synthesis TypeExpr
  | ⟨facets, properties, items, allOf, oneOf, anyOf, additional⟩ => do
    let schema : Schema := ⟨facets, properties, items, allOf, oneOf, anyOf, additional⟩
    let type ←
      match schema.shape with
      | .reference target => do
        let name ← Traced.ofExcept (resolver.resolve target)
        pure (.named name)
      | .composite .allOf => do
        let types ← synthesizeMembers resolver place allOf
        if properties.isSome then
          let index ← synthesizeIndex resolver place additional
          let fields ← synthesizeProperties resolver place facets.required index.isSome properties
          let own := objectType additional index fields
          pure (orNullIf (admitsNull allOf) (.intersectionOf (types ++ [own])))
        else
          pure (orNullIf (admitsNull allOf) (.intersectionOf types))
      | .composite .oneOf => do
        let types ← synthesizeMembers resolver place oneOf
        pure (orNullIf (admitsNull oneOf) (.unionOf types))
      | .composite .anyOf => do
        let types ← synthesizeMembers resolver place anyOf
        pure (orNullIf (admitsNull anyOf) (.unionOf types))
      | .array => do
        let type ← synthesizeItems resolver place items
        pure (.array type)
      | .object => do
        let index ← synthesizeIndex resolver place additional
        let fields ← synthesizeProperties resolver place facets.required index.isSome properties
        pure (objectType additional index fields)
      | .primitive kind => primitiveType place kind facets.enum
      | .multiType => do
        let types ← kindTypes place schema.nonNullTypes
        pure (.unionOf types)
      | .empty => pure (.object [] none)
    pure (orNullIf schema.isNullable type)
termination_by structural x => x

def synthesizeItems (resolver : Resolver) (place : String) : Option Schema → Synthesis TypeExpr
  | some items => synthesize resolver (place ++ "[]") items
  | none => pure .any
termination_by structural x => x

/-- Null-typed members are left out; they make the whole composite nullable. -/
def synthesizeMembers (resolver : Resolver) (place : String) :
    Option (List Schema) → Synthesis (List TypeExpr)
  | some members => synthesizeFrom resolver place 0 members
  | none => pure []
termination_by structural x => x

def synthesizeFrom (resolver : Resolver) (place : String) (position : Nat) :
    List Schema → Synthesis (List TypeExpr)
  | [] => pure []
  | member :: rest =>
    if member.isNullType then synthesizeFrom resolver place (position + 1) rest
    else do
      let type ← synthesize resolver (place ++ "/" ++ toString position) member
      let later ← synthesizeFrom resolver place (position + 1) rest
      pure (type :: later)
termination_by structural x => x

/-- The type of the values under undeclared keys, if such keys may be present. -/
def synthesizeIndex (resolver : Resolver) (place : String) :
    Option (Additional Schema) → Synthesis (Option TypeExpr)
  | some (.values schema) =>
    if schema.shape = .empty then pure (some .any)
    else do
      let type ← synthesize resolver (place ++ "[*]") schema
      pure (some type)
  | some (.flag true) => pure (some .any)
  | some (.flag false) => pure none
  | none => pure none
termination_by structural x => x

def synthesizeProperties (resolver : Resolver) (place : String) (required : List String)
    (opened : Bool) : Option (List (String × Schema)) → Synthesis (Option (List (Field TypeExpr)))
  | some properties => do
    let fields ← synthesizeFields resolver place required opened properties
    pure (some fields)
  | none => pure none
termination_by structural x => x

/-- Every property is optional beside an index. -/
def synthesizeFields (resolver : Resolver) (place : String) (required : List String)
    (opened : Bool) : List (String × Schema) → Synthesis (List (Field TypeExpr))
  | [] => pure []
  | (name, property) :: rest => do
    let type ← synthesize resolver (place ++ "." ++ name) property
    let later ← synthesizeFields resolver place required opened rest
    pure (⟨name, type, opened || !required.contains name, property.description⟩ :: later)
termination_by structural x => x

end

end Schema
end TypedClient
