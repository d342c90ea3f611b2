import TypedClient.Proofs.Schema.Plain
import TypedClient.Proofs.Schema.References

/-!
Documents without texts: no schema at any depth, parameter, request body, response or operation has a
description, and no operation a summary. References lead to the same components, and discriminators pin
the same properties.
-/
namespace TypedClient

def Referable.map {α β : Type} (f : α → β) : Referable α → Referable β
  | .reference path => .reference path
  | .inline value => .inline (f value)

def Parameter.plain (parameter : Parameter) : Parameter :=
  { parameter with description := none, schema := parameter.schema.map .plain }

def MediaType.plain (media : MediaType) : MediaType :=
  { media with schema := media.schema.map .plain }

def Content.plain (content : Content) : Content :=
  Entries.mapValues MediaType.plain content

def RequestBody.plain (body : RequestBody) : RequestBody :=
  { body with description := none, content := Content.plain body.content }

def Response.plain (response : Response) : Response :=
  { response with description := none, content := Content.plain response.content }

def Operation.plain (operation : Operation) : Operation :=
  { operation with
    summary := none
    description := none
    parameters := operation.parameters.map (.map .plain)
    requestBody := operation.requestBody.map (.map .plain)
    responses := Entries.mapValues (.map .plain) operation.responses }

def PathItem.plain (item : PathItem) : PathItem :=
  { item with
    parameters := item.parameters.map (.map .plain)
    operations := Entries.mapValues .plain item.operations }

def Components.plain (components : Components) : Components where
  schemas := Entries.mapValues .plain components.schemas
  responses := Entries.mapValues (.map .plain) components.responses
  parameters := Entries.mapValues (.map .plain) components.parameters
  requestBodies := Entries.mapValues (.map .plain) components.requestBodies

def Document.plain (document : Document) : Document where
  paths := Entries.mapValues .plain document.paths
  components := document.components.plain

theorem Content.schema_plain (content : Content) : content.plain.schema = content.schema.map .plain := by
  have preferred : content.plain.preferred = content.preferred.map .plain := by
    simp only [Content.preferred, Content.plain, Entries.mapValues, List.find?_map, Function.comp_def,
      List.head?_map]
    cases content.find? fun entry => isJsonMedia entry.1 <;> cases content.head? <;> rfl
  rw [Content.schema, preferred, Content.schema]
  cases content.preferred <;> rfl

theorem RequestBody.schema_plain (body : RequestBody) :
    body.plain.content.schema = body.content.schema.map .plain :=
  body.content.schema_plain

theorem Response.schema_plain (response : Response) :
    response.plain.content.schema = response.content.schema.map .plain :=
  response.content.schema_plain

/-! ### References -/

theorem follow_map {α : Type} (f : α → α) (root : Root) (table : List (String × Referable α))
    (steps : Nat) (item : Referable α) :
    follow root (Entries.mapValues (.map f) table) steps (item.map f) =
      f <$> follow root table steps item := by
  induction steps generalizing item with
  | zero => cases item <;> rfl
  | succ steps ih =>
    cases item with
    | inline value => rfl
    | reference path =>
      simp only [Referable.map, follow, map_bind]
      congr 1
      funext target
      split
      · rw [Entries.get?_mapValues]
        cases Entries.get? target.key table with
        | none => rfl
        | some next => exact ih next
      · rfl

namespace Resolver

def plain (resolver : Resolver) : Resolver :=
  ⟨resolver.components.plain, Entries.mapValues .plain resolver.schemas⟩

variable (resolver : Resolver)

theorem resolve_plain (path : String) : resolver.plain.resolve path = resolver.resolve path := by
  have contains (target : Target) : resolver.plain.contains target = resolver.contains target := by
    unfold contains
    split <;> exact Entries.has_mapValues _ _ _
  simp only [resolve, contains]

theorem parameter_plain (item : Referable Parameter) :
    resolver.plain.parameter (item.map .plain) = Parameter.plain <$> resolver.parameter item :=
  follow_map _ _ _ _ _

theorem requestBody_plain (item : Referable RequestBody) :
    resolver.plain.requestBody (item.map .plain) = RequestBody.plain <$> resolver.requestBody item :=
  follow_map _ _ _ _ _

theorem response_plain (item : Referable Response) :
    resolver.plain.response (item.map .plain) = Response.plain <$> resolver.response item :=
  follow_map _ _ _ _ _

end Resolver

/-! ### Discriminators -/

namespace Pin

theorem ofMapping_plain (schemas : List (String × Schema)) (property : String)
    (mapping : List (String × String)) :
    ofMapping (Entries.mapValues .plain schemas) property mapping =
      ofMapping schemas property mapping :=
  ofMapping_congr (fun key => Entries.has_mapValues _ key schemas) property mapping

theorem ofSchema_plain (schemas : List (String × Schema)) (schema : Schema) :
    ofSchema (Entries.mapValues .plain schemas) schema.plain = ofSchema schemas schema := by
  have oneOf := schema.plain_members_isSome .oneOf
  have anyOf := schema.plain_members_isSome .anyOf
  have allOf := schema.plain_members_isSome .allOf
  unfold Schema.members at oneOf anyOf allOf
  simp only [ofSchema, Schema.plain_toFacets, Facets.plain_discriminator, oneOf, anyOf, allOf,
    ofMapping_plain]

theorem collect_plain (schemas entries : List (String × Schema)) :
    collect (Entries.mapValues .plain schemas) (Entries.mapValues .plain entries) =
      collect schemas entries := by
  induction entries with
  | nil => rfl
  | cons entry rest ih =>
    have pins := ofSchema_plain schemas entry.2
    simp only [Entries.mapValues, List.map_cons, collect] at ih pins ⊢
    rw [ih, pins]

theorem slot_plain (variant : String) (property : Schema) :
    slot variant property.plain = (slot variant property).plain := by
  simp only [slot, Schema.plain, Schema.plain_toFacets]
  rfl

theorem applyTo_plain (pin : Pin) (schema : Schema) :
    pin.applyTo schema.plain = (pin.applyTo schema).plain := by
  have pinned (held : Option Schema) :
      slot pin.variant ((held.map .plain).getD {}) = (slot pin.variant (held.getD {})).plain := by
    cases held <;> rw [← slot_plain] <;> rfl
  have properties : (schema.properties.map (Entries.mapValues Schema.plain)).getD [] =
      Entries.mapValues Schema.plain (schema.properties.getD []) := by
    cases schema.properties <;> rfl
  rw [applyTo, applyTo, Schema.plain_declare, Schema.plain_properties, properties,
    Entries.alter_mapValues pinned]

theorem foldl_apply_plain (pins : List Pin) (schemas : List (String × Schema)) :
    pins.foldl apply (Entries.mapValues .plain schemas) =
      Entries.mapValues .plain (pins.foldl apply schemas) :=
  List.foldl_hom _ fun schemas pin => Entries.adjust_mapValues pin.applyTo_plain pin.key schemas

end Pin

theorem normalizeDiscriminators_plain (schemas : List (String × Schema)) :
    normalizeDiscriminators (Entries.mapValues .plain schemas) =
      Entries.mapValues Schema.plain <$> normalizeDiscriminators schemas := by
  simp only [normalizeDiscriminators, Pin.collect_plain, Pin.foldl_apply_plain]
  split <;> rw [Traced.map_eq] <;> rfl

end TypedClient
