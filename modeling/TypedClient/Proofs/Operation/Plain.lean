import TypedClient.Operation.Synthesis
import TypedClient.Proofs.Synthesis.Plain

/-!
Definitions and descriptors without texts. They are what synthesis makes of components and operations
that have no texts.
-/
namespace TypedClient

def Definition.plain (definition : Definition) : Definition :=
  { definition with type := definition.type.plain, doc := none }

def Registration.plain (entry : Registration) : Registration :=
  { entry with definition := entry.definition.plain }

def PathParam.plain (param : PathParam) : PathParam :=
  { param with type := param.type.plain }

/-- Of the documentation only the note of a deprecation is left. -/
def Descriptor.plain (descriptor : Descriptor) : Descriptor :=
  { descriptor with
    pathParams := descriptor.pathParams.map .plain
    trailingId := descriptor.trailingId.map .plain
    headerParams := descriptor.headerParams.map .plain
    bodyType := descriptor.bodyType.plain
    responseType := descriptor.responseType.plain
    errorType := descriptor.errorType.plain
    doc := Endpoint.doc { deprecated := descriptor.deprecated } }

def SynthesizedOperation.plain (operation : SynthesizedOperation) : SynthesizedOperation where
  descriptor := operation.descriptor.plain
  auxiliary := operation.auxiliary.map .plain

def BodyPart.plain (body : BodyPart) : BodyPart :=
  { body with type := body.type.plain, auxiliary := body.auxiliary.map .plain }

def ResponseTypes.plain (types : ResponseTypes) : ResponseTypes where
  success := types.success.map .plain
  error := types.error.map .plain

def OperationParts.plain (parts : OperationParts) : OperationParts where
  path := parts.path.map .plain
  query := parts.query.map .plain
  header := parts.header.map .plain
  body := parts.body.plain
  responses := parts.responses.plain

def Endpoint.plain (endpoint : Endpoint) : Endpoint :=
  { endpoint with
    operation := endpoint.operation.plain
    inherited := endpoint.inherited.map (.map .plain) }

def Component.plain : Component → Component
  | .schema key node => .schema key node.plain
  | .response key given => .response key (given.map .plain)
  | .requestBody key body => .requestBody key (body.map .plain)

variable (resolver : Resolver)

/-! ### Components -/

namespace Component

theorem aliasDefinition_plain (name path : String) :
    aliasDefinition resolver.plain name path =
      Definition.plain <$> aliasDefinition resolver name path := by
  simp only [aliasDefinition, resolver.resolve_plain, map_bind, map_pure, Definition.plain,
    TypeExpr.plain_named]

theorem schemaDefinition_plain (key : String) (schema : Schema) :
    schemaDefinition resolver.plain key schema.plain =
      Definition.plain <$> schemaDefinition resolver key schema := by
  simp only [schemaDefinition, Schema.plain_toFacets, Facets.plain_ref, Facets.plain_description]
  split
  · simp only [resolver.resolve_plain, map_bind, pure_bind, map_pure, Definition.plain,
      TypeExpr.plain_named]
    rfl
  · simp only [Schema.synthesize_plain, bind_map_left, map_bind, map_pure, Definition.plain]
    rfl

theorem responseDefinition_plain (name : String) (response : Response) :
    responseDefinition resolver.plain name response.plain =
      Definition.plain <$> responseDefinition resolver name response := by
  simp only [responseDefinition, Response.schema_plain]
  cases response.content.schema with
  | none =>
    simp only [Option.map_none, map_pure, pure_bind, Definition.plain, TypeExpr.plain_scalar]
    rfl
  | some node =>
    simp only [Option.map_some, Schema.synthesize_plain, bind_map_left, map_bind, map_pure,
      Definition.plain, Option.bind_some, Schema.plain_toFacets, Facets.plain_description]
    rfl

theorem requestBodyDefinition_plain (name : String) (body : RequestBody) :
    requestBodyDefinition resolver.plain name body.plain =
      Definition.plain <$> requestBodyDefinition resolver name body := by
  simp only [requestBodyDefinition, RequestBody.schema_plain]
  cases body.content.schema with
  | none =>
    simp only [Option.map_none, map_pure, pure_bind, Definition.plain, TypeExpr.plain_scalar]
    rfl
  | some node =>
    simp only [Option.map_some, Schema.synthesize_plain, bind_map_left, map_bind, map_pure,
      Definition.plain]
    rfl

theorem definition_plain (component : Component) :
    component.plain.definition resolver.plain =
      Definition.plain <$> component.definition resolver := by
  match component with
  | .schema key node => exact schemaDefinition_plain resolver key node
  | .response key (.reference path) => exact aliasDefinition_plain resolver _ path
  | .response key (.inline given) => exact responseDefinition_plain resolver _ given
  | .requestBody key (.reference path) => exact aliasDefinition_plain resolver _ path
  | .requestBody key (.inline body) => exact requestBodyDefinition_plain resolver _ body

theorem source_plain (component : Component) : component.plain.source = component.source := by
  cases component <;> rfl

end Component
/-! ### Parts of an operation -/

namespace Endpoint

theorem merge_plain (merged : List Parameter) (parameter : Parameter) :
    merge (merged.map .plain) parameter.plain = (merge merged parameter).map .plain := by
  unfold merge
  split
  · rename_i cookie
    rw [if_pos (show parameter.location = .cookie from cookie)]
  · rename_i shown
    rw [if_neg (show parameter.location ≠ .cookie from shown), List.map_append, List.filter_map]
    rfl

theorem mergeAll_plain (merged : List Parameter) (items : List (Referable Parameter)) :
    mergeAll resolver.plain (merged.map .plain) (items.map (.map .plain)) =
      List.map Parameter.plain <$> mergeAll resolver merged items := by
  induction items generalizing merged with
  | nil => rfl
  | cons item items ih =>
    simp only [List.map_cons, mergeAll, resolver.parameter_plain, bind_map_left, map_bind, merge_plain,
      ih]

theorem parameters_plain (endpoint : Endpoint) :
    endpoint.plain.parameters resolver.plain =
      List.map Parameter.plain <$> endpoint.parameters resolver := by
  rw [parameters, parameters, ← mergeAll_plain, List.map_append]
  rfl

variable (operation : String)

theorem parameterType_plain {fallback : TypeExpr} (fieldless : fallback.plain = fallback)
    (parameter : Parameter) :
    parameterType resolver.plain operation fallback parameter.plain =
      TypeExpr.plain <$> parameterType resolver operation fallback parameter := by
  simp only [parameterType, Parameter.plain]
  cases parameter.schema with
  | none => simp only [Option.map_none, map_pure, fieldless]
  | some schema => exact Schema.synthesize_plain resolver schema _

theorem matching_plain (placeholder : String) (declared : List Parameter) :
    matching placeholder (declared.map .plain) = (matching placeholder declared).map .plain := by
  have named (p : Parameter → Bool) (blind : ∀ parameter, p (Parameter.plain parameter) = p parameter) :
      (declared.map .plain).find? p = (declared.find? p).map .plain := by
    rw [List.find?_map]
    simp only [Function.comp_def, blind]
  unfold matching
  rw [named _ fun _ => rfl, named _ fun _ => rfl]
  cases declared.find? (·.name == placeholder) <;> rfl

theorem pathParam_plain (declared : List Parameter) (placeholder : String) :
    pathParam resolver.plain operation (declared.map .plain) placeholder =
      PathParam.plain <$> pathParam resolver operation declared placeholder := by
  unfold pathParam
  rw [matching_plain]
  cases matching placeholder declared with
  | none => simp only [Option.map_none, map_bind, map_pure, PathParam.plain, TypeExpr.plain_scalar]
  | some parameter =>
    simp only [Option.map_some, parameterType_plain resolver operation (TypeExpr.plain_scalar .string),
      bind_map_left, map_bind, map_pure, PathParam.plain]
    rfl

theorem pathParams_plain (declared : List Parameter) (template : List Route.Part) :
    pathParams resolver.plain operation (declared.map .plain) template =
      List.map PathParam.plain <$> pathParams resolver operation declared template := by
  induction template with
  | nil => rfl
  | cons part rest ih =>
    cases part with
    | static text => exact ih
    | placeholder name =>
      simp only [pathParams, pathParam_plain, ih, bind_map_left, map_bind, map_pure, List.map_cons]

theorem queryFields_plain (parameters : List Parameter) :
    queryFields resolver.plain operation (parameters.map .plain) =
      List.map Field.plain <$> queryFields resolver operation parameters := by
  induction parameters with
  | nil => rfl
  | cons parameter rest ih =>
    simp only [List.map_cons, queryFields,
      parameterType_plain resolver operation (TypeExpr.plain_scalar .any), ih, bind_map_left, map_bind,
      map_pure, Field.plain]
    rfl

theorem inlineBody_plain (body : RequestBody) :
    inlineBody resolver.plain operation body.plain =
      BodyPart.plain <$> inlineBody resolver operation body := by
  simp only [inlineBody, RequestBody.schema_plain]
  cases body.content.schema with
  | none =>
    simp only [Option.map_none, map_pure, BodyPart.plain, TypeExpr.plain_scalar]
    rfl
  | some schema =>
    simp only [Option.map_some, Schema.plain_toFacets, Facets.plain_ref, Schema.synthesize_plain,
      bind_map_left]
    split
    · simp only [map_bind, map_pure, BodyPart.plain]
      rfl
    · simp only [map_bind, map_pure, BodyPart.plain, TypeExpr.plain_named]
      rfl

theorem bodyPart_plain (body : Option (Referable RequestBody)) :
    bodyPart resolver.plain operation (body.map (.map .plain)) =
      BodyPart.plain <$> bodyPart resolver operation body := by
  match body with
  | none =>
    simp only [Option.map_none, bodyPart, map_pure, BodyPart.plain, TypeExpr.plain_scalar]
    rfl
  | some (.inline body) => exact inlineBody_plain resolver operation body
  | some (.reference path) =>
    have found := resolver.requestBody_plain (.reference path)
    simp only [Referable.map] at found
    simp only [Option.map_some, Referable.map, bodyPart, found, Traced.ofExcept_map, bind_map_left,
      resolver.resolve_plain, map_bind, map_pure, BodyPart.plain, TypeExpr.plain_named]
    rfl

theorem responseType_plain (place : String) (item : Referable Response) :
    responseType resolver.plain place (item.map .plain) =
      Option.map TypeExpr.plain <$> responseType resolver place item := by
  simp only [responseType, resolver.response_plain, Traced.ofExcept_map, bind_map_left, map_bind]
  congr 1
  funext response
  rw [Response.schema_plain]
  cases response.content.schema with
  | none => simp only [Option.map_none, map_pure]
  | some schema =>
    cases item with
    | reference path =>
      simp only [Option.map_some, Referable.map, resolver.resolve_plain, map_bind, map_pure,
        TypeExpr.plain_named]
    | inline given =>
      simp only [Option.map_some, Referable.map, Schema.synthesize_plain, bind_map_left, map_bind,
        map_pure]

theorem responseTypes_plain (responses : List (String × Referable Response)) :
    responseTypes resolver.plain operation (Entries.mapValues (.map .plain) responses) =
      ResponseTypes.plain <$> responseTypes resolver operation responses := by
  induction responses with
  | nil => rfl
  | cons entry rest ih =>
    obtain ⟨status, item⟩ := entry
    simp only [Entries.mapValues, List.map_cons, responseTypes] at ih ⊢
    rw [ih]
    have toList (type : Option TypeExpr) :
        (type.map TypeExpr.plain).toList = type.toList.map .plain := by
      cases type <;> rfl
    split
    · simp only [map_bind]
    · simp only [responseType_plain, map_bind, bind_map_left, map_pure, ResponseTypes.plain,
        List.map_append, toList]
    · simp only [responseType_plain, map_bind, bind_map_left, map_pure, ResponseTypes.plain,
        List.map_append, toList]

/-! ### The descriptor -/

theorem successType_plain (types : List TypeExpr) :
    successType operation (types.map .plain) =
      ((successType operation types).1.plain, (successType operation types).2.map .plain) := by
  simp only [successType, List.isEmpty_map, TypeExpr.unionOf_plain]
  split
  · rw [TypeExpr.plain_scalar, List.map_nil]
  · cases TypeExpr.unionOf types <;> simp [auxiliary, Registration.plain, Definition.plain]

theorem errorType_plain (types : List TypeExpr) :
    errorType (types.map .plain) = (errorType types).plain := by
  simp only [errorType, List.isEmpty_map, TypeExpr.unionOf_plain]
  split
  · rw [TypeExpr.plain_scalar]
  · rfl

theorem queryDefinition_plain (fields : List (Field TypeExpr)) :
    queryDefinition operation (fields.map .plain) = (queryDefinition operation fields).map .plain := by
  simp only [queryDefinition, List.isEmpty_map]
  split
  · rfl
  · simp [auxiliary, Registration.plain, Definition.plain]

theorem queryDefinition_name (fields : List (Field TypeExpr)) :
    ((queryDefinition operation fields).map Registration.plain).head?.map (·.definition.name) =
      (queryDefinition operation fields).head?.map (·.definition.name) := by
  rw [List.head?_map, Option.map_map]
  rfl

theorem assemble_plain (endpoint : Endpoint) (name : String) (parts : OperationParts) :
    endpoint.plain.assemble name parts.plain = (endpoint.assemble name parts).plain := by
  have cut : endpoint.plain.cutsTrailingId = endpoint.cutsTrailingId := rfl
  have identifiers (params : List PathParam) :
      (params.map PathParam.plain).map (·.identifier) = params.map (·.identifier) := by
    rw [List.map_map]
    rfl
  have required : (parts.query.map Field.plain).any (!·.optional) = parts.query.any (!·.optional) := by
    rw [List.any_map]
    rfl
  have kept : (if endpoint.cutsTrailingId then (parts.path.map PathParam.plain).dropLast
        else parts.path.map PathParam.plain) =
      (if endpoint.cutsTrailingId then parts.path.dropLast else parts.path).map .plain := by
    split
    · rw [List.map_dropLast]
    · rfl
  have trailing : (if endpoint.cutsTrailingId then (parts.path.map PathParam.plain).getLast?
        else none) =
      (if endpoint.cutsTrailingId then parts.path.getLast? else none).map .plain := by
    split
    · rw [List.getLast?_map]
    · rfl
  simp only [assemble, cut, OperationParts.plain, ResponseTypes.plain, BodyPart.plain,
    SynthesizedOperation.plain, Descriptor.plain, kept, trailing, identifiers, required,
    successType_plain, errorType_plain, queryDefinition_plain, queryDefinition_name, List.map_append]
  rfl

theorem parts_plain (endpoint : Endpoint) (name : String) :
    endpoint.plain.parts resolver.plain name =
      OperationParts.plain <$> endpoint.parts resolver name := by
  have located (declared : List Parameter) (location : Location) :
      (declared.map Parameter.plain).filter (·.location == location) =
        (declared.filter (·.location == location)).map .plain := by
    rw [List.filter_map]
    rfl
  have body : endpoint.plain.operation.requestBody = endpoint.operation.requestBody.map (.map .plain) :=
    rfl
  have responses : endpoint.plain.operation.responses =
      Entries.mapValues (.map .plain) endpoint.operation.responses := rfl
  have route : endpoint.plain.route = endpoint.route := rfl
  simp only [parts, parameters_plain, Traced.ofExcept_map, bind_map_left, map_bind, located, route,
    pathParams_plain, queryFields_plain, body, bodyPart_plain, responses, responseTypes_plain, map_pure,
    OperationParts.plain]

theorem synthesize_plain (naming : Naming) (endpoint : Endpoint) :
    endpoint.plain.synthesize resolver.plain naming =
      SynthesizedOperation.plain <$> endpoint.synthesize resolver naming := by
  have name : endpoint.plain.name naming = endpoint.name naming := rfl
  simp only [synthesize, name, parts_plain, bind_map_left, map_bind, map_pure, assemble_plain]

end Endpoint
end TypedClient
