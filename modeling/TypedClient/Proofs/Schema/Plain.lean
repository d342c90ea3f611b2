import TypedClient.Proofs.Document.Entries
import TypedClient.Proofs.Schema.Nodes
import TypedClient.Synthesis.Schema

/-! Schemas without their descriptions, at any depth. Nothing that classifies a node is lost. -/
namespace TypedClient

namespace Facets

def plain (facets : Facets) : Facets :=
  { facets with description := none }

variable (facets : Facets)

@[simp] theorem plain_ref : facets.plain.ref = facets.ref := rfl

@[simp] theorem plain_required : facets.plain.required = facets.required := rfl

@[simp] theorem plain_enum : facets.plain.enum = facets.enum := rfl

@[simp] theorem plain_description : facets.plain.description = none := rfl

@[simp] theorem plain_discriminator : facets.plain.discriminator = facets.discriminator := rfl

@[simp] theorem plain_nonNullTypes : facets.plain.nonNullTypes = facets.nonNullTypes := rfl

@[simp] theorem plain_isNullType : facets.plain.isNullType = facets.isNullType := rfl

@[simp] theorem plain_isNullable : facets.plain.isNullable = facets.isNullable := rfl

end Facets

namespace Schema

mutual

/-- The schema with no node described. -/
def plain : Schema → Schema
  | ⟨facets, properties, items, allOf, oneOf, anyOf, additional⟩ =>
    ⟨facets.plain, plainProperties properties, plainItems items, plainMembers allOf,
      plainMembers oneOf, plainMembers anyOf, plainAdditional additional⟩
termination_by structural x => x

def plainItems : Option Schema → Option Schema
  | none => none
  | some items => some items.plain
termination_by structural x => x

def plainMembers : Option (List Schema) → Option (List Schema)
  | none => none
  | some members => some (plainAll members)
termination_by structural x => x

def plainAll : List Schema → List Schema
  | [] => []
  | schema :: rest => schema.plain :: plainAll rest
termination_by structural x => x

def plainProperties : Option (List (String × Schema)) → Option (List (String × Schema))
  | none => none
  | some properties => some (plainEntries properties)
termination_by structural x => x

def plainEntries : List (String × Schema) → List (String × Schema)
  | [] => []
  | (name, property) :: rest => (name, property.plain) :: plainEntries rest
termination_by structural x => x

def plainAdditional : Option (Additional Schema) → Option (Additional Schema)
  | none => none
  | some (.flag allowed) => some (.flag allowed)
  | some (.values schema) => some (.values schema.plain)
termination_by structural x => x

end

theorem plainAll_eq (schemas : List Schema) : plainAll schemas = schemas.map plain := by
  induction schemas with
  | nil => rfl
  | cons schema schemas ih => rw [plainAll, ih, List.map_cons]

theorem plainMembers_eq (members : Option (List Schema)) :
    plainMembers members = members.map (List.map plain) := by
  cases members with
  | none => rfl
  | some members => rw [plainMembers, plainAll_eq, Option.map_some]

theorem plainEntries_eq (properties : List (String × Schema)) :
    plainEntries properties = Entries.mapValues plain properties := by
  induction properties with
  | nil => rfl
  | cons entry rest ih => rw [plainEntries, ih, Entries.mapValues, Entries.mapValues, List.map_cons]

section Keywords

variable (schema : Schema)

@[simp] theorem plain_toFacets : schema.plain.toFacets = schema.toFacets.plain := by
  cases schema
  rw [plain]

@[simp] theorem plain_properties :
    schema.plain.properties = schema.properties.map (Entries.mapValues plain) := by
  obtain ⟨facets, properties, items, allOf, oneOf, anyOf, additional⟩ := schema
  rw [plain]
  cases properties with
  | none => rfl
  | some properties => exact congrArg some (plainEntries_eq properties)

@[simp] theorem plain_items : schema.plain.items = schema.items.map plain := by
  obtain ⟨facets, properties, items, allOf, oneOf, anyOf, additional⟩ := schema
  rw [plain]
  cases items <;> rfl

@[simp] theorem plain_members (composition : Composition) :
    schema.plain.members composition = (schema.members composition).map (List.map plain) := by
  cases schema
  rw [plain]
  cases composition <;> exact plainMembers_eq _

@[simp] theorem plain_additional : schema.plain.additional = plainAdditional schema.additional := by
  cases schema
  rw [plain]

theorem plain_declare (properties : List (String × Schema)) :
    ({ schema with properties := some properties } : Schema).plain =
      { schema.plain with properties := some (Entries.mapValues plain properties) } := by
  cases schema
  rw [plain, plain, plainProperties, plainEntries_eq]

end Keywords

/-! ### The shape of a node -/

section Shape

variable (schema : Schema)

theorem plain_members_isSome (composition : Composition) :
    (schema.plain.members composition).isSome = (schema.members composition).isSome := by
  rw [plain_members, Option.isSome_map]

theorem plain_additional_isSome : schema.plain.additional.isSome = schema.additional.isSome := by
  rw [plain_additional]
  rcases schema.additional with _ | _ | _ <;> rfl

theorem plain_untypedShape : schema.plain.untypedShape = schema.untypedShape := by
  unfold untypedShape
  rw [plain_properties, Option.isSome_map, plain_additional_isSome, plain_items, Option.isSome_map,
    plain_toFacets, Facets.plain_enum, Facets.plain_isNullType]

@[simp] theorem plain_shape : schema.plain.shape = schema.shape := by
  have allOf := plain_members_isSome schema .allOf
  have oneOf := plain_members_isSome schema .oneOf
  have anyOf := plain_members_isSome schema .anyOf
  unfold members at allOf oneOf anyOf
  unfold shape
  rw [allOf, oneOf, anyOf, plain_untypedShape, plain_toFacets, Facets.plain_ref,
    Facets.plain_nonNullTypes]

@[simp] theorem plain_admitsNull (nodes : Option (List Schema)) :
    admitsNull (nodes.map (List.map plain)) = admitsNull nodes := by
  cases nodes <;> simp [admitsNull, Function.comp_def]

end Shape
end Schema
end TypedClient
