import TypedClient.Operation.Synthesis
import TypedClient.Proofs.Document.Relevant
import TypedClient.Proofs.Synthesis.Resolution

/-!
Components and operations reduced to what synthesis looks at come out as they do in full: with the same
definitions and descriptors, or with the same error. Only the reports of what is passed over are gone.
-/
namespace TypedClient

def Component.relevant : Component → Component
  | .schema key node => .schema key node
  | .response key given => .response key (given.map .relevant)
  | .requestBody key body => .requestBody key (body.map .relevant)

def Endpoint.relevant (endpoint : Endpoint) : Endpoint :=
  { endpoint with
    operation := endpoint.operation.relevant
    inherited := Operation.relevantParameters endpoint.inherited }

variable (resolver : Resolver)

/-- Schemas see the resolver only through the names of its references. -/
theorem Schema.synthesize_relevant (schema : Schema) (place : String) :
    (schema.synthesize resolver.relevant place).outcome = (schema.synthesize resolver place).outcome :=
  alike_of_agree schema (fun path _ => resolver.resolve_relevant path) place place

/-! ### Components -/

namespace Component

theorem aliasDefinition_relevant (name path : String) :
    (aliasDefinition resolver.relevant name path).outcome =
      (aliasDefinition resolver name path).outcome := by
  simp only [aliasDefinition, resolver.resolve_relevant]

theorem schemaDefinition_relevant (key : String) (schema : Schema) :
    (schemaDefinition resolver.relevant key schema).outcome =
      (schemaDefinition resolver key schema).outcome := by
  unfold schemaDefinition
  split
  · simp only [resolver.resolve_relevant]
  · simp only [Traced.outcome_bind, schema.synthesize_relevant]

theorem responseDefinition_relevant (name : String) (response : Response) :
    (responseDefinition resolver.relevant name response.relevant).outcome =
      (responseDefinition resolver name response).outcome := by
  simp only [responseDefinition, Response.schema_relevant]
  cases response.content.schema with
  | none => rfl
  | some node =>
    simp only [Traced.outcome_bind, node.synthesize_relevant]
    rfl

theorem requestBodyDefinition_relevant (name : String) (body : RequestBody) :
    (requestBodyDefinition resolver.relevant name body.relevant).outcome =
      (requestBodyDefinition resolver name body).outcome := by
  simp only [requestBodyDefinition, RequestBody.schema_relevant]
  cases body.content.schema with
  | none => rfl
  | some node =>
    simp only [Traced.outcome_bind, node.synthesize_relevant]
    rfl

theorem definition_relevant (component : Component) :
    (component.relevant.definition resolver.relevant).outcome =
      (component.definition resolver).outcome := by
  match component with
  | .schema key node => exact schemaDefinition_relevant resolver key node
  | .response key (.reference path) => exact aliasDefinition_relevant resolver _ path
  | .response key (.inline given) => exact responseDefinition_relevant resolver _ given
  | .requestBody key (.reference path) => exact aliasDefinition_relevant resolver _ path
  | .requestBody key (.inline body) => exact requestBodyDefinition_relevant resolver _ body

theorem source_relevant (component : Component) : component.relevant.source = component.source := by
  cases component <;> rfl

end Component

/-! ### Parts of an operation -/

namespace Endpoint

/-- A cookie given in place is merged into nothing, whatever its name. -/
theorem mergeAll_cookie {item : Referable Parameter} (cookie : item.isCookie = true)
    (merged : List Parameter) (rest : List (Referable Parameter)) :
    mergeAll resolver merged (item :: rest) = mergeAll resolver merged rest := by
  cases item with
  | reference path => cases cookie
  | inline parameter =>
    have location : parameter.location = .cookie := eq_of_beq cookie
    have left : merge merged parameter = merged := if_pos location
    change mergeAll resolver (merge merged parameter) rest = mergeAll resolver merged rest
    rw [left]

theorem mergeAll_relevant (merged : List Parameter) (items : List (Referable Parameter)) :
    mergeAll resolver.relevant merged (Operation.relevantParameters items) =
      mergeAll resolver merged items := by
  induction items generalizing merged with
  | nil => rfl
  | cons item rest ih =>
    rw [Operation.relevantParameters, List.filter_cons]
    cases cookie : item.isCookie with
    | true =>
      rw [mergeAll_cookie resolver cookie]
      exact ih merged
    | false =>
      simp only [Bool.not_false, if_true, mergeAll]
      congr 1
      funext parameter
      exact ih _

theorem parameters_relevant (endpoint : Endpoint) :
    endpoint.relevant.parameters resolver.relevant = endpoint.parameters resolver := by
  rw [parameters, parameters, ← mergeAll_relevant resolver [] (endpoint.inherited ++ _),
    Operation.relevantParameters, List.filter_append]
  rfl

variable (operation : String)

theorem parameterType_relevant (fallback : TypeExpr) (parameter : Parameter) :
    (parameterType resolver.relevant operation fallback parameter).outcome =
      (parameterType resolver operation fallback parameter).outcome := by
  unfold parameterType
  split
  · exact Schema.synthesize_relevant resolver _ _
  · rfl

theorem pathParam_relevant (declared : List Parameter) (placeholder : String) :
    (pathParam resolver.relevant operation declared placeholder).outcome =
      (pathParam resolver operation declared placeholder).outcome := by
  unfold pathParam
  split
  · simp only [Traced.outcome_bind, parameterType_relevant]
  · rfl

theorem pathParams_relevant (declared : List Parameter) (template : List Route.Part) :
    (pathParams resolver.relevant operation declared template).outcome =
      (pathParams resolver operation declared template).outcome := by
  induction template with
  | nil => rfl
  | cons part rest ih =>
    cases part with
    | static text => exact ih
    | placeholder name => simp only [pathParams, Traced.outcome_bind, pathParam_relevant, ih]

theorem queryFields_relevant (parameters : List Parameter) :
    (queryFields resolver.relevant operation parameters).outcome =
      (queryFields resolver operation parameters).outcome := by
  induction parameters with
  | nil => rfl
  | cons parameter rest ih => simp only [queryFields, Traced.outcome_bind, parameterType_relevant, ih]

theorem inlineBody_relevant (body : RequestBody) :
    (inlineBody resolver.relevant operation body.relevant).outcome =
      (inlineBody resolver operation body).outcome := by
  simp only [inlineBody, RequestBody.schema_relevant]
  cases body.content.schema with
  | none => rfl
  | some schema =>
    simp only
    split <;> simp only [Traced.outcome_bind, schema.synthesize_relevant] <;> rfl

theorem bodyPart_relevant (body : Option (Referable RequestBody)) :
    (bodyPart resolver.relevant operation (body.map (.map .relevant))).outcome =
      (bodyPart resolver operation body).outcome := by
  match body with
  | none => rfl
  | some (.inline body) => exact inlineBody_relevant resolver operation body
  | some (.reference path) =>
    have found := resolver.requestBody_relevant (.reference path)
    simp only [Referable.map] at found
    simp only [Option.map_some, Referable.map, bodyPart, found, Traced.ofExcept_map, bind_map_left,
      resolver.resolve_relevant]
    rfl

theorem responseType_relevant (place : String) (item : Referable Response) :
    (responseType resolver.relevant place (item.map .relevant)).outcome =
      (responseType resolver place item).outcome := by
  simp only [responseType, resolver.response_relevant, Traced.ofExcept_map, bind_map_left,
    Traced.outcome_bind]
  congr 1
  funext response
  rw [Response.schema_relevant]
  cases response.content.schema with
  | none => cases item <;> rfl
  | some schema =>
    cases item with
    | reference path => simp only [Referable.map, resolver.resolve_relevant]
    | inline given => simp only [Referable.map, Traced.outcome_bind, schema.synthesize_relevant]

theorem status_ignored_iff (status : String) :
    StatusClass.of status = .ignored ↔ isRedirect status = true := by
  unfold StatusClass.of isRedirect
  split <;> simp_all

theorem responseTypes_relevant (responses : List (String × Referable Response)) :
    (responseTypes resolver.relevant operation (Operation.relevantResponses responses)).outcome =
      (responseTypes resolver operation responses).outcome := by
  induction responses with
  | nil => rfl
  | cons entry rest ih =>
    obtain ⟨status, item⟩ := entry
    cases redirect : isRedirect status with
    | true =>
      -- Only the report of the redirect is gone.
      have ignored := (status_ignored_iff status).mpr redirect
      simp only [responseTypes, ignored, Traced.outcome_bind, Traced.outcome_report, Except.bind]
      simpa [Operation.relevantResponses, redirect] using ih
    | false =>
      have kept : Operation.relevantResponses ((status, item) :: rest) =
          (status, item.map .relevant) :: Operation.relevantResponses rest := by
        simp [Operation.relevantResponses, Entries.mapValues, redirect]
      rw [kept, responseTypes, responseTypes]
      cases kind : StatusClass.of status with
      | ignored => simp [(status_ignored_iff status).mp kind] at redirect
      | success | error => simp only [Traced.outcome_bind, responseType_relevant, ih]

/-! ### The descriptor -/

theorem parts_relevant (endpoint : Endpoint) :
    (endpoint.relevant.parts resolver.relevant operation).outcome =
      (endpoint.parts resolver operation).outcome := by
  simp only [parts, Traced.outcome_bind, Traced.outcome_ofExcept, parameters_relevant,
    queryFields_relevant]
  congr 1
  funext declared
  -- The route is the same, and the template with it.
  have path := pathParams_relevant resolver operation (declared.filter (·.location == .path))
    (Route.parse endpoint.route)
  have body := bodyPart_relevant resolver operation endpoint.operation.requestBody
  have responses := responseTypes_relevant resolver operation endpoint.operation.responses
  rw [← path, ← body, ← responses]
  rfl

theorem synthesize_relevant (naming : Naming) (endpoint : Endpoint) :
    (endpoint.relevant.synthesize resolver.relevant naming).outcome =
      (endpoint.synthesize resolver naming).outcome := by
  have name : endpoint.relevant.name naming = endpoint.name naming := rfl
  simp only [synthesize, name, Traced.outcome_bind, parts_relevant]
  rfl

end Endpoint
end TypedClient
