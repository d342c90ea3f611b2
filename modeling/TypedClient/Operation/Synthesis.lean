import TypedClient.Operation.Descriptor
import TypedClient.Synthesis.Components

/-!
Operations as descriptors. The definitions that a descriptor needs beside the components are returned
with it and registered by the caller.
-/
namespace TypedClient

/-- Names operations from outside, before any other rule. -/
abbrev Naming := Verb → String → Option String

def Naming.none : Naming := fun _ _ => Option.none

structure Endpoint where
  route : String
  verb : Verb
  operation : Operation
  inherited : List (Referable Parameter) := []

structure SynthesizedOperation where
  descriptor : Descriptor
  auxiliary : List Registration

inductive StatusClass where
  | success
  | error
  | ignored
  deriving DecidableEq

def StatusClass.of (status : String) : StatusClass :=
  match status.toList.head? with
  | some '2' => .success
  | some '3' => .ignored
  | _ => .error

structure BodyPart where
  type : TypeExpr
  required : Bool
  auxiliary : List Registration

structure ResponseTypes where
  success : List TypeExpr
  error : List TypeExpr

structure OperationParts where
  path : List PathParam
  query : List (Field TypeExpr)
  header : List Parameter
  body : BodyPart
  responses : ResponseTypes

namespace Endpoint

/-- The outside name, then the declared identifier, then the default of verb and route. -/
def name (naming : Naming) (endpoint : Endpoint) : String :=
  match naming endpoint.verb endpoint.route with
  | some name => name
  | none =>
    match endpoint.operation.operationId with
    | some id =>
      if id.isEmpty then Route.defaultName endpoint.verb endpoint.route
      else Identifier.capitalized id
    | none => Route.defaultName endpoint.verb endpoint.route

/-- A later parameter replaces an earlier one of its name. Cookies are left out. -/
def merge (merged : List Parameter) (parameter : Parameter) : List Parameter :=
  if parameter.location = .cookie then merged
  else merged.filter (fun held => !(held.name == parameter.name)) ++ [parameter]

def mergeAll (resolver : Resolver) (merged : List Parameter) :
    List (Referable Parameter) → Except ReferenceError (List Parameter)
  | [] => .ok merged
  | item :: rest => do
    let parameter ← resolver.parameter item
    mergeAll resolver (merge merged parameter) rest

def parameters (resolver : Resolver) (endpoint : Endpoint) :
    Except ReferenceError (List Parameter) :=
  mergeAll resolver [] (endpoint.inherited ++ endpoint.operation.parameters)

def parameterType (resolver : Resolver) (operation : String) (fallback : TypeExpr)
    (parameter : Parameter) : Synthesis TypeExpr :=
  match parameter.schema with
  | some schema => schema.synthesize resolver (operation ++ "(" ++ parameter.name ++ ")")
  | none => pure fallback

/-- The parameter of exactly this name, or else the first with the same words. -/
def matching (placeholder : String) (declared : List Parameter) : Option Parameter :=
  (declared.find? (·.name == placeholder)).or
    (declared.find? fun parameter =>
      Identifier.snake parameter.name == Identifier.snake placeholder)

def pathParam (resolver : Resolver) (operation : String) (declared : List Parameter)
    (placeholder : String) : Synthesis PathParam :=
  match matching placeholder declared with
  | some parameter => do
    let type ← parameterType resolver operation (.scalar .string) parameter
    pure ⟨placeholder, Identifier.ofName parameter.name, true, type⟩
  | none => do
    Traced.report (.placeholderUnmatched operation placeholder)
    pure ⟨placeholder, Identifier.ofName placeholder, true, .scalar .string⟩

def pathParams (resolver : Resolver) (operation : String) (declared : List Parameter) :
    List Route.Part → Synthesis (List PathParam)
  | [] => pure []
  | .static _ :: rest => pathParams resolver operation declared rest
  | .placeholder name :: rest => do
    let param ← pathParam resolver operation declared name
    let later ← pathParams resolver operation declared rest
    pure (param :: later)

def queryFields (resolver : Resolver) (operation : String) :
    List Parameter → Synthesis (List (Field TypeExpr))
  | [] => pure []
  | parameter :: rest => do
    let type ← parameterType resolver operation .any parameter
    let later ← queryFields resolver operation rest
    pure (⟨parameter.name, type, !parameter.required, parameter.description⟩ :: later)

def auxiliary (operation : String) (role : Role) (name : String) (type : TypeExpr)
    (doc : Option String := none) : Registration :=
  ⟨⟨name, type, doc⟩, .operation operation role⟩

/-- A body given in place gets a definition of its own, unless its schema is a reference. -/
def inlineBody (resolver : Resolver) (operation : String) (body : RequestBody) :
    Synthesis BodyPart :=
  match body.content.schema with
  | none => pure ⟨.any, body.required, []⟩
  | some schema =>
    if schema.ref.isSome then do
      let type ← schema.synthesize resolver operation
      pure ⟨type, body.required, []⟩
    else do
      let name := operation ++ "RequestBody"
      let type ← schema.synthesize resolver name
      pure ⟨.named name, body.required,
        [auxiliary operation .requestBody name type (DocComment.ofTexts body.description.toList)]⟩

def bodyPart (resolver : Resolver) (operation : String) :
    Option (Referable RequestBody) → Synthesis BodyPart
  | none => pure ⟨.scalar .void, false, []⟩
  | some (.reference path) => do
    let body ← Traced.ofExcept (resolver.requestBody (.reference path))
    let name ← Traced.ofExcept (resolver.resolve path)
    pure ⟨.named name, body.required, []⟩
  | some (.inline body) => inlineBody resolver operation body

/-- The type that a response contributes, none without content. -/
def responseType (resolver : Resolver) (place : String) (item : Referable Response) :
    Synthesis (Option TypeExpr) := do
  let response ← Traced.ofExcept (resolver.response item)
  match response.content.schema, item with
  | none, _ => pure none
  | some _, .reference path => do
    let name ← Traced.ofExcept (resolver.resolve path)
    pure (some (.named name))
  | some schema, .inline _ => do
    let type ← schema.synthesize resolver place
    pure (some type)

/-- Redirects contribute nothing and are not even resolved. -/
def responseTypes (resolver : Resolver) (operation : String) :
    List (String × Referable Response) → Synthesis ResponseTypes
  | [] => pure ⟨[], []⟩
  | (status, item) :: rest =>
    match StatusClass.of status with
    | .ignored => do
      Traced.report (.redirectIgnored operation status)
      responseTypes resolver operation rest
    | .success => do
      let type ← responseType resolver (operation ++ "." ++ status) item
      let later ← responseTypes resolver operation rest
      pure { later with success := type.toList ++ later.success }
    | .error => do
      let type ← responseType resolver (operation ++ "." ++ status) item
      let later ← responseTypes resolver operation rest
      pure { later with error := type.toList ++ later.error }

/-- Success responses of no single name get a definition. -/
def successType (operation : String) (types : List TypeExpr) : TypeExpr × List Registration :=
  if types.isEmpty then (.scalar .void, [])
  else
    match TypeExpr.unionOf types with
    | .named name => (.named name, [])
    | type =>
      let name := operation ++ "Response"
      (.named name, [auxiliary operation .response name type])

def errorType (types : List TypeExpr) : TypeExpr :=
  if types.isEmpty then .scalar .unknown else TypeExpr.unionOf types

def queryDefinition (operation : String) (fields : List (Field TypeExpr)) : List Registration :=
  if fields.isEmpty then []
  else [auxiliary operation .queryParams (operation ++ "QueryParams") (.object fields none)]

def doc (operation : Operation) : String :=
  let note := if operation.deprecated then ["@deprecated"] else []
  (DocComment.ofTexts (operation.summary.toList ++ operation.description.toList ++ note)).getD ""

/-- A deletion whose route ends in a placeholder of its own carries that placeholder apart. -/
def cutsTrailingId (endpoint : Endpoint) : Bool :=
  endpoint.verb == .delete && Route.endsWithPlaceholder (Route.parse endpoint.route)

/-- The descriptor of an operation and its definitions, from the types of its parts. -/
def assemble (endpoint : Endpoint) (name : String) (parts : OperationParts) :
    SynthesizedOperation :=
  let operation := endpoint.operation
  let template := Route.parse endpoint.route
  let cut := endpoint.cutsTrailingId
  let kept := if cut then parts.path.dropLast else parts.path
  let shown := if cut then template.dropLast else template
  let (success, responseDefinition) := successType name parts.responses.success
  let queryDefinition := queryDefinition name parts.query
  { descriptor := {
      name
      verb := endpoint.verb
      path := endpoint.route
      route := Route.interpolate shown (kept.map (·.identifier))
      pathParams := kept
      trailingId := if cut then parts.path.getLast? else none
      queryParamsType := queryDefinition.head?.map (·.definition.name)
      queryRequired := parts.query.any (!·.optional)
      headerParams := parts.header
      bodyType := parts.body.type
      bodyRequired := parts.body.required
      responseType := success
      errorType := errorType parts.responses.error
      doc := doc operation
      tags := operation.tags
      deprecated := operation.deprecated }
    auxiliary := queryDefinition ++ parts.body.auxiliary ++ responseDefinition }

/-- The types of all parts, in the order in which their references are looked up. -/
def parts (resolver : Resolver) (name : String) (endpoint : Endpoint) : Synthesis OperationParts := do
  let declared ← Traced.ofExcept (endpoint.parameters resolver)
  let located (location : Location) := declared.filter (·.location == location)
  let path ← pathParams resolver name (located .path) (Route.parse endpoint.route)
  let query ← queryFields resolver name (located .query)
  let body ← bodyPart resolver name endpoint.operation.requestBody
  let responses ← responseTypes resolver name endpoint.operation.responses
  pure { path, query, header := located .header, body, responses }

def synthesize (resolver : Resolver) (naming : Naming) (endpoint : Endpoint) :
    Synthesis SynthesizedOperation := do
  let name := endpoint.name naming
  let parts ← endpoint.parts resolver name
  pure (endpoint.assemble name parts)

end Endpoint
end TypedClient
