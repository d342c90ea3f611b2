import TypedClient.Synthesis.Schema
import TypedClient.Proofs.Outcome

/-! One step of synthesis, in terms of the keywords of a node. -/
namespace TypedClient.Schema

def synthesizeObject (resolver : Resolver) (place : String) (schema : Schema) :
    Synthesis TypeExpr := do
  let index ← synthesizeIndex resolver place schema.additional
  let fields ← synthesizeProperties resolver place schema.required index.isSome schema.properties
  pure (objectType schema.additional index fields)

/-- The type of a node before its null flag. -/
def synthesizeCore (resolver : Resolver) (place : String) (schema : Schema) : Synthesis TypeExpr :=
  match schema.shape with
  | .reference target => do
    let name ← Traced.ofExcept (resolver.resolve target)
    pure (.named name)
  | .composite .allOf => do
    let types ← synthesizeMembers resolver place (schema.members .allOf)
    if schema.properties.isSome then
      let own ← synthesizeObject resolver place schema
      pure (orNullIf (admitsNull (schema.members .allOf)) (.intersectionOf (types ++ [own])))
    else pure (orNullIf (admitsNull (schema.members .allOf)) (.intersectionOf types))
  | .composite composition => do
    let types ← synthesizeMembers resolver place (schema.members composition)
    pure (orNullIf (admitsNull (schema.members composition)) (.unionOf types))
  | .array => do
    let type ← synthesizeItems resolver place schema.items
    pure (.array type)
  | .object => synthesizeObject resolver place schema
  | .primitive kind => primitiveType place kind schema.enum
  | .multiType => do
    let types ← kindTypes place schema.nonNullTypes
    pure (.unionOf types)
  | .empty => pure (.object [] none)

theorem synthesize_eq (resolver : Resolver) (place : String) (schema : Schema) :
    schema.synthesize resolver place = (do
      let type ← schema.synthesizeCore resolver place
      pure (orNullIf schema.isNullable type)) := by
  obtain ⟨facets, properties, items, allOf, oneOf, anyOf, additional⟩ := schema
  rw [synthesize, synthesizeCore]
  split <;> rename_i shape <;> simp only [shape, Traced.bind_assoc, synthesizeObject, members]
  · congr 1
    funext types
    split
    · simp only [Traced.bind_assoc]
      rfl
    · rfl

end TypedClient.Schema
