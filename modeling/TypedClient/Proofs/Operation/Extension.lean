import TypedClient.Operation.Synthesis
import TypedClient.Proofs.Synthesis.Resolution

/-!
A resolver that resolves more. Whatever is synthesized under the smaller resolver is synthesized alike
under the larger one.
-/
namespace TypedClient

/-- The larger resolver resolves every reference that the smaller one resolves, and finds the same
values where references are followed. -/
structure Resolver.Extends (resolver larger : Resolver) : Prop where
  resolve : ∀ path name, resolver.resolve path = .ok name → larger.resolve path = .ok name
  parameters : larger.components.parameters = resolver.components.parameters
  responses : larger.components.responses = resolver.components.responses
  requestBodies : larger.components.requestBodies = resolver.components.requestBodies

variable {resolver larger : Resolver} (more : resolver.Extends larger)
include more

theorem Resolver.Extends.resolved (path : String) :
    (Traced.ofExcept (resolver.resolve path)).CoveredBy (Traced.ofExcept (larger.resolve path)) :=
  more.resolve path

theorem Schema.synthesize_covered (schema : Schema) (place : String) :
    (schema.synthesize resolver place).CoveredBy (schema.synthesize larger place) := by
  intro type made
  have agree : ∀ path, schema.Refers path → larger.resolve path = resolver.resolve path := by
    intro path refers
    obtain ⟨name, resolved⟩ := HasType.resolves ⟨place, made⟩ refers
    rw [resolved, more.resolve path name resolved]
  exact (alike_of_agree schema agree place place).trans made

namespace Component

theorem schemaDefinition_covered (key : String) (node : Schema) :
    (schemaDefinition resolver key node).CoveredBy (schemaDefinition larger key node) := by
  unfold schemaDefinition
  split
  · exact .bind (more.resolved _) fun _ => .refl _
  · exact .bind (node.synthesize_covered more _) fun _ => .refl _

theorem responseDefinition_covered (name : String) (response : Response) :
    (responseDefinition resolver name response).CoveredBy
      (responseDefinition larger name response) := by
  unfold responseDefinition
  split
  · exact .bind (Schema.synthesize_covered more _ _) fun _ => .refl _
  · exact .refl _

theorem requestBodyDefinition_covered (name : String) (body : RequestBody) :
    (requestBodyDefinition resolver name body).CoveredBy
      (requestBodyDefinition larger name body) := by
  unfold requestBodyDefinition
  split
  · exact .bind (Schema.synthesize_covered more _ _) fun _ => .refl _
  · exact .refl _

theorem aliasDefinition_covered (name path : String) :
    (aliasDefinition resolver name path).CoveredBy (aliasDefinition larger name path) :=
  .bind (more.resolved path) fun _ => .refl _

theorem definition_covered (component : Component) :
    (component.definition resolver).CoveredBy (component.definition larger) :=
  match component with
  | .schema key node => schemaDefinition_covered more key node
  | .response _ (.inline given) => responseDefinition_covered more _ given
  | .requestBody _ (.inline given) => requestBodyDefinition_covered more _ given
  | .response _ (.reference path) => aliasDefinition_covered more _ path
  | .requestBody _ (.reference path) => aliasDefinition_covered more _ path

end Component

namespace Endpoint

theorem mergeAll_extends (merged : List Parameter) (items : List (Referable Parameter)) :
    mergeAll larger merged items = mergeAll resolver merged items := by
  induction items generalizing merged with
  | nil => rfl
  | cons item rest ih => simp only [mergeAll, Resolver.parameter, more.parameters, ih]

variable (operation : String)

theorem parameterType_covered (fallback : TypeExpr) (parameter : Parameter) :
    (parameterType resolver operation fallback parameter).CoveredBy
      (parameterType larger operation fallback parameter) := by
  unfold parameterType
  split
  · exact Schema.synthesize_covered more _ _
  · exact .refl _

theorem pathParam_covered (declared : List Parameter) (placeholder : String) :
    (pathParam resolver operation declared placeholder).CoveredBy
      (pathParam larger operation declared placeholder) := by
  unfold pathParam
  split
  · exact .bind (parameterType_covered more _ _ _) fun _ => .refl _
  · exact .refl _

theorem pathParams_covered (declared : List Parameter) (template : List Route.Part) :
    (pathParams resolver operation declared template).CoveredBy
      (pathParams larger operation declared template) := by
  induction template with
  | nil => exact .refl _
  | cons part rest ih =>
    cases part with
    | static text => exact ih
    | placeholder name =>
      exact .bind (pathParam_covered more _ _ _) fun _ => .bind ih fun _ => .refl _

theorem queryFields_covered (parameters : List Parameter) :
    (queryFields resolver operation parameters).CoveredBy
      (queryFields larger operation parameters) := by
  induction parameters with
  | nil => exact .refl _
  | cons parameter rest ih =>
    exact .bind (parameterType_covered more _ _ _) fun _ => .bind ih fun _ => .refl _

theorem inlineBody_covered (body : RequestBody) :
    (inlineBody resolver operation body).CoveredBy (inlineBody larger operation body) := by
  unfold inlineBody
  split
  · exact .refl _
  · split
    · exact .bind (Schema.synthesize_covered more _ _) fun _ => .refl _
    · exact .bind (Schema.synthesize_covered more _ _) fun _ => .refl _

theorem bodyPart_covered (body : Option (Referable RequestBody)) :
    (bodyPart resolver operation body).CoveredBy (bodyPart larger operation body) := by
  match body with
  | none => exact .refl _
  | some (.inline body) => exact inlineBody_covered more operation body
  | some (.reference path) =>
    simp only [bodyPart, Resolver.requestBody, more.requestBodies]
    exact .bind (.refl _) fun _ => .bind (more.resolved path) fun _ => .refl _

theorem responseType_covered (place : String) (item : Referable Response) :
    (responseType resolver place item).CoveredBy (responseType larger place item) := by
  simp only [responseType, Resolver.response, more.responses]
  refine .bind (.refl _) fun response => ?_
  split
  · exact .refl _
  · exact .bind (more.resolved _) fun _ => .refl _
  · exact .bind (Schema.synthesize_covered more _ _) fun _ => .refl _

theorem responseTypes_covered (responses : List (String × Referable Response)) :
    (responseTypes resolver operation responses).CoveredBy
      (responseTypes larger operation responses) := by
  induction responses with
  | nil => exact .refl _
  | cons entry rest ih =>
    obtain ⟨status, item⟩ := entry
    unfold responseTypes
    split
    · exact .bind (.refl _) fun _ => ih
    · exact .bind (responseType_covered more _ _) fun _ => .bind ih fun _ => .refl _
    · exact .bind (responseType_covered more _ _) fun _ => .bind ih fun _ => .refl _

theorem synthesize_covered (naming : Naming) (endpoint : Endpoint) :
    (endpoint.synthesize resolver naming).CoveredBy (endpoint.synthesize larger naming) := by
  refine .bind ?_ fun _ => .refl _
  simp only [Endpoint.parts, parameters, mergeAll_extends more]
  exact .bind (.refl _) fun _ => .bind (pathParams_covered more _ _ _) fun _ =>
    .bind (queryFields_covered more _ _) fun _ => .bind (bodyPart_covered more _ _) fun _ =>
      .bind (responseTypes_covered more _ _) fun _ => .refl _

end Endpoint
end TypedClient
