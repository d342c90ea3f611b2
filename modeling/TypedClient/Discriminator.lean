import TypedClient.Reference
import TypedClient.Event

/-!
Discriminator normalization: every schema that a discriminator mapping names gets the discriminating
property pinned to the name of its variant.
-/
namespace TypedClient

structure Pin where
  key : String
  property : String
  variant : String
  deriving DecidableEq

namespace Pin

/-- A mapping names a schema by a reference or by its bare key. -/
def keyOf (target : String) : Except ReferenceError String :=
  if target.toList.head? == some '#' then do
    let parsed ← Target.parse target
    if parsed.root = .schema then .ok parsed.key else .error (.unsupported target)
  else .ok target

def ofMapping (schemas : List (String × Schema)) (property : String) :
    List (String × String) → Except ReferenceError (List Pin)
  | [] => .ok []
  | (variant, target) :: rest => do
    let key ← keyOf target
    if Entries.has key schemas then
      return ⟨key, property, variant⟩ :: (← ofMapping schemas property rest)
    else .error (.dangling target)

/-- A discriminator counts only beside a composition keyword. -/
def ofSchema (schemas : List (String × Schema)) (schema : Schema) :
    Except ReferenceError (List Pin) :=
  match schema.discriminator with
  | some discriminator =>
    if schema.oneOf.isSome || schema.anyOf.isSome || schema.allOf.isSome then
      ofMapping schemas discriminator.property discriminator.mapping
    else .ok []
  | none => .ok []

def collect (schemas : List (String × Schema)) :
    List (String × Schema) → Except ReferenceError (List Pin)
  | [] => .ok []
  | (_, schema) :: rest => do
    let pins ← ofSchema schemas schema
    return pins ++ (← collect schemas rest)

/-- Only the literal survives of what the property was, with its description and null flag. -/
def slot (variant : String) (property : Schema) : Schema :=
  { type := some (.single "string")
    enum := some [.text variant]
    description := property.description
    nullable := property.nullable }

def applyTo (pin : Pin) (schema : Schema) : Schema :=
  { schema with
    properties := some (Entries.alter pin.property (fun held => slot pin.variant (held.getD {}))
      (schema.properties.getD [])) }

def apply (schemas : List (String × Schema)) (pin : Pin) : List (String × Schema) :=
  Entries.adjust pin.key pin.applyTo schemas

def event (pin : Pin) : Event :=
  .discriminatorPinned pin.key pin.property pin.variant

end Pin

/-- All mappings are checked before the first schema is changed. -/
def normalizeDiscriminators (schemas : List (String × Schema)) :
    Traced ReferenceError (List (String × Schema)) :=
  match Pin.collect schemas schemas with
  | .error cause => ⟨[], .error cause⟩
  | .ok pins => ⟨pins.map Pin.event, .ok (pins.foldl Pin.apply schemas)⟩

/-! ### In place -/

/-- A schema map under change, with what was reported so far. -/
structure Draft where
  schemas : List (String × Schema)
  events : List Event := []

namespace Pin

def write (pin : Pin) : StateM Draft Unit := do
  modify fun draft => { draft with events := draft.events ++ [pin.event] }
  modify fun draft => { draft with schemas := apply draft.schemas pin }

def writeAll : List Pin → StateM Draft Unit
  | [] => pure ()
  | pin :: rest => do
    pin.write
    writeAll rest

end Pin

/-- Normalization of a map where it stands. A failure leaves the map as far as it is changed. -/
def normalizeInPlace : StateM Draft (Except ReferenceError Unit) := do
  let schemas := (← get).schemas
  match Pin.collect schemas schemas with
  | .error cause => pure (.error cause)
  | .ok pins => do
    Pin.writeAll pins
    pure (.ok ())

end TypedClient
