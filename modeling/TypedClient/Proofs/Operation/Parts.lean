import Mathlib.Data.List.ReduceOption
import TypedClient.Operation.Synthesis
import TypedClient.Proofs.Reference.Chains
import TypedClient.Proofs.Synthesis.Typing

/-!
What the parts of an operation are made from: each parameter, body and response with the type of the
schema that it declares. `Endpoint.parts_described` opens a whole run at once.
-/
namespace TypedClient

namespace Endpoint

theorem mem_merge {merged : List Parameter} {parameter held : Parameter}
    (member : held ∈ merge merged parameter) : held ∈ merged ∨ held = parameter := by
  unfold merge at member
  split at member
  · exact .inl member
  · rcases List.mem_append.mp member with kept | last
    · exact .inl (List.mem_filter.mp kept).1
    · exact .inr (List.mem_singleton.mp last)

theorem mem_mergeAll {resolver : Resolver} {items : List (Referable Parameter)}
    {merged declared : List Parameter} {parameter : Parameter}
    (made : mergeAll resolver merged items = .ok declared) (member : parameter ∈ declared) :
    parameter ∈ merged ∨ ∃ item ∈ items, resolver.parameter item = .ok parameter := by
  induction items generalizing merged with
  | nil =>
    obtain rfl := Except.ok.inj made
    exact .inl member
  | cons item rest ih =>
    rw [mergeAll] at made
    obtain ⟨resolved, given, made⟩ := bind_ok made
    rcases ih made with early | ⟨later, present, found⟩
    · rcases mem_merge early with held | rfl
      · exact .inl held
      · exact .inr ⟨item, List.mem_cons_self, given⟩
    · exact .inr ⟨later, List.mem_cons_of_mem _ present, found⟩

/-! ### The rules for each part -/

inductive PlaceholderTyped (resolver : Resolver) (declared : List Parameter) (placeholder : String) :
    PathParam → Prop where
  | matched {parameter : Parameter} {type : TypeExpr}
      (found : matching placeholder declared = some parameter)
      (typed : Schema.TypedOr resolver (.scalar .string) parameter.schema type) :
      PlaceholderTyped resolver declared placeholder
        ⟨placeholder, Identifier.ofName parameter.name, true, type⟩
  | unmatched (absent : matching placeholder declared = none) :
      PlaceholderTyped resolver declared placeholder
        ⟨placeholder, Identifier.ofName placeholder, true, .scalar .string⟩

inductive QueryTyped (resolver : Resolver) (parameter : Parameter) : Field TypeExpr → Prop where
  | field {type : TypeExpr} (typed : Schema.TypedOr resolver .any parameter.schema type) :
      QueryTyped resolver parameter
        ⟨parameter.name, type, !parameter.required, parameter.description⟩

inductive BodyTyped (resolver : Resolver) (operation : String) :
    Option (Referable RequestBody) → BodyPart → Prop where
  | absent : BodyTyped resolver operation none ⟨.scalar .void, false, []⟩
  | reference {path name : String} {body : RequestBody}
      (found : resolver.requestBody (.reference path) = .ok body)
      (resolved : resolver.resolve path = .ok name) :
      BodyTyped resolver operation (some (.reference path)) ⟨.named name, body.required, []⟩
  | untyped {body : RequestBody} (absent : body.content.schema = none) :
      BodyTyped resolver operation (some (.inline body)) ⟨.any, body.required, []⟩
  | referring {body : RequestBody} {schema : Schema} {type : TypeExpr}
      (declared : body.content.schema = some schema) (refers : schema.ref.isSome = true)
      (typed : schema.HasType resolver type) :
      BodyTyped resolver operation (some (.inline body)) ⟨type, body.required, []⟩
  | defined {body : RequestBody} {schema : Schema} {type : TypeExpr}
      (declared : body.content.schema = some schema) (inPlace : schema.ref.isSome = false)
      (typed : schema.HasType resolver type) :
      BodyTyped resolver operation (some (.inline body))
        ⟨.named (operation ++ "RequestBody"), body.required,
          [auxiliary operation .requestBody (operation ++ "RequestBody") type
            (DocComment.ofTexts body.description.toList)]⟩

inductive ResponseTyped (resolver : Resolver) : Referable Response → Option TypeExpr → Prop where
  | empty {item : Referable Response} {response : Response}
      (found : resolver.response item = .ok response) (absent : response.content.schema = none) :
      ResponseTyped resolver item none
  | reference {path name : String} {response : Response}
      (found : resolver.response (.reference path) = .ok response)
      (resolved : resolver.resolve path = .ok name) :
      ResponseTyped resolver (.reference path) (some (.named name))
  | typed {response : Response} {schema : Schema} {type : TypeExpr}
      (declared : response.content.schema = some schema) (typed : schema.HasType resolver type) :
      ResponseTyped resolver (.inline response) (some type)

/-- The types that the responses of one class contribute, in order. -/
def ResponsesTyped (resolver : Resolver) (status : StatusClass)
    (responses : List (String × Referable Response)) (types : List TypeExpr) : Prop :=
  ∃ contributed, types = contributed.reduceOption ∧
    List.Forall₂ (fun entry type => ResponseTyped resolver entry.2 type)
      (responses.filter fun entry => StatusClass.of entry.1 = status) contributed

def placeholders (template : List Route.Part) : List String :=
  template.filterMap fun
    | .placeholder name => some name
    | .static _ => none

structure Described (resolver : Resolver) (name : String) (endpoint : Endpoint)
    (declared : List Parameter) (parts : OperationParts) : Prop where
  merged : endpoint.parameters resolver = .ok declared
  path : List.Forall₂ (PlaceholderTyped resolver (declared.filter (·.location == .path)))
    (placeholders (Route.parse endpoint.route)) parts.path
  query : List.Forall₂ (QueryTyped resolver) (declared.filter (·.location == .query)) parts.query
  header : parts.header = declared.filter (·.location == .header)
  body : BodyTyped resolver name endpoint.operation.requestBody parts.body
  success : ResponsesTyped resolver .success endpoint.operation.responses parts.responses.success
  error : ResponsesTyped resolver .error endpoint.operation.responses parts.responses.error

/-! ### Runs follow the rules -/

section Runs

variable {resolver : Resolver} {operation : String}

theorem parameterType_typed {fallback type : TypeExpr} {parameter : Parameter}
    (made : (parameterType resolver operation fallback parameter).outcome = .ok type) :
    Schema.TypedOr resolver fallback parameter.schema type := by
  unfold parameterType at made
  split at made
  · rename_i schema declared
    exact declared ▸ .declared ⟨_, made⟩
  · rename_i absent
    obtain rfl := Traced.pure_ok made
    exact absent ▸ .absent

theorem pathParam_typed {declared : List Parameter} {placeholder : String} {param : PathParam}
    (made : (pathParam resolver operation declared placeholder).outcome = .ok param) :
    PlaceholderTyped resolver declared placeholder param := by
  unfold pathParam at made
  split at made
  · rename_i parameter found
    obtain ⟨type, typed, made⟩ := Traced.bind_ok made
    obtain rfl := Traced.pure_ok made
    exact .matched found (parameterType_typed typed)
  · rename_i absent
    obtain ⟨-, -, made⟩ := Traced.bind_ok made
    obtain rfl := Traced.pure_ok made
    exact .unmatched absent

theorem pathParams_typed {declared : List Parameter} {template : List Route.Part}
    {params : List PathParam}
    (made : (pathParams resolver operation declared template).outcome = .ok params) :
    List.Forall₂ (PlaceholderTyped resolver declared) (placeholders template) params := by
  induction template generalizing params with
  | nil =>
    obtain rfl := Traced.pure_ok made
    exact .nil
  | cons part rest ih =>
    cases part with
    | static text => exact ih made
    | placeholder name =>
      obtain ⟨param, first, made⟩ := Traced.bind_ok made
      obtain ⟨later, others, made⟩ := Traced.bind_ok made
      obtain rfl := Traced.pure_ok made
      exact .cons (pathParam_typed first) (ih others)

theorem queryFields_typed {parameters : List Parameter} {fields : List (Field TypeExpr)}
    (made : (queryFields resolver operation parameters).outcome = .ok fields) :
    List.Forall₂ (QueryTyped resolver) parameters fields := by
  induction parameters generalizing fields with
  | nil =>
    obtain rfl := Traced.pure_ok made
    exact .nil
  | cons parameter rest ih =>
    obtain ⟨type, first, made⟩ := Traced.bind_ok made
    obtain ⟨later, others, made⟩ := Traced.bind_ok made
    obtain rfl := Traced.pure_ok made
    exact .cons (.field (parameterType_typed first)) (ih others)

theorem inlineBody_typed {body : RequestBody} {part : BodyPart}
    (made : (inlineBody resolver operation body).outcome = .ok part) :
    BodyTyped resolver operation (some (.inline body)) part := by
  unfold inlineBody at made
  split at made
  · rename_i absent
    obtain rfl := Traced.pure_ok made
    exact .untyped absent
  · rename_i schema declared
    split at made
    · rename_i refers
      obtain ⟨type, typed, made⟩ := Traced.bind_ok made
      obtain rfl := Traced.pure_ok made
      exact .referring declared refers ⟨_, typed⟩
    · rename_i inPlace
      obtain ⟨type, typed, made⟩ := Traced.bind_ok made
      obtain rfl := Traced.pure_ok made
      exact .defined declared (Bool.eq_false_iff.mpr inPlace) ⟨_, typed⟩

theorem bodyPart_typed {body : Option (Referable RequestBody)} {part : BodyPart}
    (made : (bodyPart resolver operation body).outcome = .ok part) :
    BodyTyped resolver operation body part := by
  match body with
  | none =>
    obtain rfl := Traced.pure_ok made
    exact .absent
  | some (.reference path) =>
    obtain ⟨body, found, made⟩ := Traced.bind_ok made
    obtain ⟨name, resolved, made⟩ := Traced.bind_ok made
    obtain rfl := Traced.pure_ok made
    exact .reference found resolved
  | some (.inline body) => exact inlineBody_typed made

theorem responseType_typed {place : String} {item : Referable Response} {type : Option TypeExpr}
    (made : (responseType resolver place item).outcome = .ok type) :
    ResponseTyped resolver item type := by
  obtain ⟨response, found, made⟩ := Traced.bind_ok made
  split at made
  · rename_i absent _
    obtain rfl := Traced.pure_ok made
    exact .empty found absent
  · obtain ⟨name, resolved, made⟩ := Traced.bind_ok made
    obtain rfl := Traced.pure_ok made
    exact .reference found resolved
  · rename_i schema declared given
    obtain ⟨type, typed, made⟩ := Traced.bind_ok made
    obtain rfl := Traced.pure_ok made
    obtain rfl := Except.ok.inj found
    exact .typed declared ⟨_, typed⟩

theorem ResponsesTyped.cons {status : StatusClass} {entry : String × Referable Response}
    {responses : List (String × Referable Response)} {types : List TypeExpr} {type : Option TypeExpr}
    (same : StatusClass.of entry.1 = status) (first : ResponseTyped resolver entry.2 type)
    (others : ResponsesTyped resolver status responses types) :
    ResponsesTyped resolver status (entry :: responses) (type.toList ++ types) := by
  obtain ⟨contributed, rfl, each⟩ := others
  refine ⟨type :: contributed, ?_, ?_⟩
  · cases type <;> rfl
  · simpa [same] using ⟨first, each⟩

theorem ResponsesTyped.skip {status : StatusClass} {entry : String × Referable Response}
    {responses : List (String × Referable Response)} {types : List TypeExpr}
    (other : StatusClass.of entry.1 ≠ status) (others : ResponsesTyped resolver status responses types) :
    ResponsesTyped resolver status (entry :: responses) types := by
  obtain ⟨contributed, rfl, each⟩ := others
  exact ⟨contributed, rfl, by simpa [other] using each⟩

/-- A redirection adds nothing, any other response adds its type to those of its class. -/
theorem responseTypes_cons_ok {status : String} {item : Referable Response}
    {rest : List (String × Referable Response)} {types : ResponseTypes}
    (made : (responseTypes resolver operation ((status, item) :: rest)).outcome = .ok types) :
    StatusClass.of status = .ignored ∧ (responseTypes resolver operation rest).outcome = .ok types ∨
      ∃ type later, (responseType resolver (operation ++ "." ++ status) item).outcome = .ok type ∧
        (responseTypes resolver operation rest).outcome = .ok later ∧
        (StatusClass.of status = .success ∧
            types = { later with success := type.toList ++ later.success } ∨
          StatusClass.of status = .error ∧
            types = { later with error := type.toList ++ later.error }) := by
  rw [responseTypes] at made
  split at made
  · rename_i ignored
    obtain ⟨-, -, made⟩ := Traced.bind_ok made
    exact .inl ⟨ignored, made⟩
  · rename_i success
    obtain ⟨type, first, made⟩ := Traced.bind_ok made
    obtain ⟨later, others, made⟩ := Traced.bind_ok made
    exact .inr ⟨type, later, first, others, .inl ⟨success, Traced.pure_ok made⟩⟩
  · rename_i error
    obtain ⟨type, first, made⟩ := Traced.bind_ok made
    obtain ⟨later, others, made⟩ := Traced.bind_ok made
    exact .inr ⟨type, later, first, others, .inr ⟨error, Traced.pure_ok made⟩⟩

theorem responseTypes_typed {responses : List (String × Referable Response)} {types : ResponseTypes}
    (made : (responseTypes resolver operation responses).outcome = .ok types) :
    ResponsesTyped resolver .success responses types.success ∧
      ResponsesTyped resolver .error responses types.error := by
  induction responses generalizing types with
  | nil =>
    obtain rfl := Traced.pure_ok made
    exact ⟨⟨[], rfl, .nil⟩, ⟨[], rfl, .nil⟩⟩
  | cons entry rest ih =>
    obtain ⟨status, item⟩ := entry
    rcases responseTypes_cons_ok made with
      ⟨ignored, made⟩ | ⟨type, later, first, others, ⟨success, rfl⟩ | ⟨error, rfl⟩⟩
    · exact ⟨.skip (by simp [ignored]) (ih made).1, .skip (by simp [ignored]) (ih made).2⟩
    · exact ⟨.cons success (responseType_typed first) (ih others).1,
        .skip (by simp [success]) (ih others).2⟩
    · exact ⟨.skip (by simp [error]) (ih others).1,
        .cons error (responseType_typed first) (ih others).2⟩

end Runs

theorem successType_cases (operation : String) (types : List TypeExpr) :
    successType operation types = (.scalar .void, []) ∨
      (∃ name, TypeExpr.unionOf types = .named name ∧
        successType operation types = (.named name, [])) ∨
      successType operation types = (.named (operation ++ "Response"),
        [auxiliary operation .response (operation ++ "Response") (TypeExpr.unionOf types)]) := by
  unfold successType
  split
  · exact .inl rfl
  · split
    · rename_i name union
      exact .inr (.inl ⟨name, union, rfl⟩)
    · exact .inr (.inr rfl)

theorem auxiliary_assemble (endpoint : Endpoint) (operation : String) (parts : OperationParts) :
    (endpoint.assemble operation parts).auxiliary = queryDefinition operation parts.query ++
      parts.body.auxiliary ++ (successType operation parts.responses.success).2 :=
  rfl

theorem mem_queryDefinition {operation : String} {fields : List (Field TypeExpr)}
    {entry : Registration} (member : entry ∈ queryDefinition operation fields) :
    entry = auxiliary operation .queryParams (operation ++ "QueryParams") (.object fields none) := by
  unfold queryDefinition at member
  split at member
  · cases member
  · exact List.mem_singleton.mp member

theorem parts_described {resolver : Resolver} {name : String} {endpoint : Endpoint}
    {parts : OperationParts} (made : (endpoint.parts resolver name).outcome = .ok parts) :
    ∃ declared, endpoint.Described resolver name declared parts := by
  obtain ⟨declared, merged, made⟩ := Traced.bind_ok made
  obtain ⟨path, pathMade, made⟩ := Traced.bind_ok made
  obtain ⟨query, queryMade, made⟩ := Traced.bind_ok made
  obtain ⟨body, bodyMade, made⟩ := Traced.bind_ok made
  obtain ⟨responses, responsesMade, made⟩ := Traced.bind_ok made
  obtain rfl := Traced.pure_ok made
  exact ⟨declared, merged, pathParams_typed pathMade, queryFields_typed queryMade, rfl,
    bodyPart_typed bodyMade, (responseTypes_typed responsesMade).1,
    (responseTypes_typed responsesMade).2⟩

/-- A synthesized operation is assembled from the described parts of its endpoint. -/
theorem synthesize_described {resolver : Resolver} {naming : Naming} {endpoint : Endpoint}
    {operation : SynthesizedOperation}
    (made : (endpoint.synthesize resolver naming).outcome = .ok operation) :
    ∃ declared parts, endpoint.Described resolver (endpoint.name naming) declared parts ∧
      operation = endpoint.assemble (endpoint.name naming) parts := by
  obtain ⟨parts, made, assembled⟩ := Traced.bind_ok made
  obtain ⟨declared, described⟩ := parts_described made
  exact ⟨declared, parts, described, Traced.pure_ok assembled⟩

end Endpoint
end TypedClient
