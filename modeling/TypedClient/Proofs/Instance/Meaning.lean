import TypedClient.Synthesis.Schema
import Mathlib.Data.Set.Defs
import Mathlib.Data.Rat.Defs

/-!
What type expressions and schemas say about JSON values: `Belongs` reads a type as a set of values, and
`Accepts` reads a schema by the keywords that its shape selects.
-/
namespace TypedClient

inductive Instance where
  | null
  | flag (value : Bool)
  | number (value : ℚ)
  | text (value : String)
  | array (items : List Instance)
  | object (entries : List (String × Instance))

variable (meaning : String → Set Instance)

/-- The values of a type, where each name stands for a set of values. -/
inductive TypeExpr.Belongs : TypeExpr → Instance → Prop where
  | number (value : ℚ) : Belongs (.scalar .number) (.number value)
  | string (value : String) : Belongs (.scalar .string) (.text value)
  | boolean (value : Bool) : Belongs (.scalar .boolean) (.flag value)
  | any (value : Instance) : Belongs (.scalar .any) value
  | unknown (value : Instance) : Belongs (.scalar .unknown) value
  | literal {values : List String} {value : String} (listed : value ∈ values) :
      Belongs (.literals values) (.text value)
  | array {type : TypeExpr} {items : List Instance} (each : ∀ item ∈ items, Belongs type item) :
      Belongs (.array type) (.array items)
  /-- Every value has the type of an object of which nothing is said. -/
  | anything (value : Instance) : Belongs (.object [] none) value
  | object {fields : List (Field TypeExpr)} {index : Option TypeExpr}
      {entries : List (String × Instance)}
      (required : ∀ field ∈ fields, field.optional = false → ∃ value, (field.name, value) ∈ entries)
      (known : ∀ field ∈ fields, ∀ value, (field.name, value) ∈ entries → Belongs field.type value)
      (others : ∀ type, index = some type → ∀ entry ∈ entries, entry.1 ∉ fields.map (·.name) →
        Belongs type entry.2) :
      Belongs (.object fields index) (.object entries)
  | union {members : List TypeExpr} {member : TypeExpr} {value : Instance}
      (present : member ∈ members) (belongs : Belongs member value) : Belongs (.union members) value
  | intersection {members : List TypeExpr} {value : Instance}
      (each : ∀ member ∈ members, Belongs member value) : Belongs (.intersection members) value
  | named {name : String} {value : Instance} (present : value ∈ meaning name) :
      Belongs (.named name) value
  | null {inner : TypeExpr} : Belongs (.nullable inner) .null
  | inner {inner : TypeExpr} {value : Instance} (belongs : Belongs inner value) :
      Belongs (.nullable inner) value

/-- The number that a floating point value stands for, if it is finite. -/
def Binary64.rational? : Binary64 → Option ℚ
  | .finite negative mantissa exponent =>
    some ((if negative then -1 else 1) * mantissa * (2 : ℚ) ^ exponent)
  | _ => none

inductive EnumValue.Denotes : EnumValue → Instance → Prop where
  | text (value : String) : Denotes (.text value) (.text value)
  | integer (value : Int) : Denotes (.integer value) (.number value)
  | float {value : Binary64} {number : ℚ} (finite : value.rational? = some number) :
      Denotes (.float value) (.number number)
  | flag (value : Bool) : Denotes (.flag value) (.flag value)
  | null : Denotes .null .null

namespace Instance

def integerKinds : List String := ["integer", "long"]

def numberKinds : List String := ["float", "double", "number"]

def textKinds : List String :=
  ["string", "byte", "binary", "date", "dateTime", "date-time", "password"]

/-- The values of a type name. A name that is not known excludes no value. -/
inductive OfKind : String → Instance → Prop where
  | integer {kind : String} (value : Int) (known : kind ∈ integerKinds) :
      OfKind kind (.number value)
  | number {kind : String} (value : ℚ) (known : kind ∈ numberKinds) : OfKind kind (.number value)
  | text {kind : String} (value : String) (known : kind ∈ textKinds) : OfKind kind (.text value)
  | flag (value : Bool) : OfKind "boolean" (.flag value)
  | null : OfKind "null" .null
  | array (items : List Instance) : OfKind "array" (.array items)
  | object (entries : List (String × Instance)) : OfKind "object" (.object entries)
  | other {kind : String} (value : Instance)
      (unknown : kind ∉ integerKinds ++ numberKinds ++ textKinds ++
        ["boolean", "null", "array", "object"]) : OfKind kind value

end Instance

namespace Schema

variable (resolver : Resolver)

mutual

/-- The values that a node admits. A reference admits what its name stands for. -/
inductive Accepts : Schema → Instance → Prop where
  | null {schema : Schema} (nullable : schema.isNullable = true) : Accepts schema .null
  | reference {schema : Schema} {target name : String} {value : Instance}
      (shape : schema.shape = .reference target) (resolved : resolver.resolve target = .ok name)
      (present : value ∈ meaning name) : Accepts schema value
  | allOf {schema : Schema} {value : Instance} (shape : schema.shape = .composite .allOf)
      (members : ∀ member ∈ schema.allOf.getD [], Accepts member value)
      (own : schema.properties.isSome = true → AcceptsObject schema value) : Accepts schema value
  /-- Of `oneOf` and `anyOf` some member admits the value. -/
  | someOf {schema member : Schema} {composition : Composition} {value : Instance}
      (shape : schema.shape = .composite composition) (alternative : composition ≠ .allOf)
      (present : member ∈ (schema.members composition).getD []) (accepted : Accepts member value) :
      Accepts schema value
  | array {schema : Schema} {items : List Instance} (shape : schema.shape = .array)
      (each : ∀ node, schema.items = some node → ∀ item ∈ items, Accepts node item) :
      Accepts schema (.array items)
  | object {schema : Schema} {value : Instance} (shape : schema.shape = .object)
      (own : AcceptsObject schema value) : Accepts schema value
  | primitive {schema : Schema} {kind : String} {value : Instance}
      (shape : schema.shape = .primitive kind) (ofKind : value.OfKind kind)
      (listed : ∀ values, schema.enum = some values → ∃ entry ∈ values, entry.Denotes value) :
      Accepts schema value
  /-- An enumeration of strings admits null by an entry of its own. -/
  | nullEntry {schema : Schema} {kind : String} {values : List EnumValue}
      (shape : schema.shape = .primitive kind) (texts : kind ∈ Instance.textKinds)
      (enumerated : schema.enum = some values) (listed : .null ∈ values) : Accepts schema .null
  | kinds {schema : Schema} {kind : String} {value : Instance} (shape : schema.shape = .multiType)
      (named : kind ∈ schema.nonNullTypes) (ofKind : value.OfKind kind) : Accepts schema value
  | empty {schema : Schema} (value : Instance) (shape : schema.shape = .empty) : Accepts schema value

/-- The objects that satisfy `required`, `properties` and `additionalProperties`. -/
inductive AcceptsObject : Schema → Instance → Prop where
  | intro {schema : Schema} {entries : List (String × Instance)}
      (required : ∀ name ∈ schema.required, ∃ value, (name, value) ∈ entries)
      (declared : ∀ property ∈ schema.properties.getD [], ∀ value,
        (property.1, value) ∈ entries → Accepts property.2 value)
      (closed : schema.additional = some (.flag false) → ∀ entry ∈ entries,
        entry.1 ∈ (schema.properties.getD []).map (·.1))
      (others : ∀ node, schema.additional = some (.values node) → ∀ entry ∈ entries,
        entry.1 ∉ (schema.properties.getD []).map (·.1) → Accepts node entry.2) :
      AcceptsObject schema (.object entries)

end

/-- Whether a keyword beside `type` decides how the node is read. -/
def isStructured (schema : Schema) : Bool :=
  schema.ref.isSome || schema.properties.isSome || schema.items.isSome || schema.enum.isSome ||
    schema.allOf.isSome || schema.oneOf.isSome || schema.anyOf.isSome || schema.additional.isSome

end Schema
end TypedClient
