import TypedClient.Proofs.Operation.Canonical
import TypedClient.Proofs.Route.Reading

/-!
Path parameters and the route that they come from. Each placeholder of the route has one parameter, in
order, and the placeholder that ends the route of a deletion is cut off together with its parameter.
-/
namespace TypedClient

namespace Route

/-- The template with the identifier of its own parameter in place of each placeholder. -/
inductive Interpolated : List Part → List PathParam → String → Prop where
  | done : Interpolated [] [] ""
  | static {text shown : String} {rest : List Part} {params : List PathParam}
      (later : Interpolated rest params shown) :
      Interpolated (.static text :: rest) params (text ++ shown)
  | placeholder {param : PathParam} {rest : List Part} {params : List PathParam} {shown : String}
      (later : Interpolated rest params shown) :
      Interpolated (.placeholder param.name :: rest) (param :: params)
        ("$\x7b" ++ param.identifier ++ "\x7d" ++ shown)

theorem interpolated_of_names {template : List Part} {params : List PathParam}
    (named : params.map (·.name) = Endpoint.placeholders template) :
    Interpolated template params (interpolate template (params.map (·.identifier))) := by
  induction template generalizing params with
  | nil =>
    obtain rfl := List.map_eq_nil_iff.mp named
    exact .done
  | cons part template ih =>
    cases part with
    | static text => exact .static (ih named)
    | placeholder name =>
      obtain ⟨param, params, rfl, rfl, later⟩ := List.map_eq_cons_iff.mp named
      exact .placeholder (ih later)

end Route

namespace Endpoint

def located (location : Location) (parameters : List Parameter) : List Parameter :=
  parameters.filter (·.location == location)

/-- A path parameter as these declarations give it: by the declaration of its very name, else by the
first that is made of the same words, else it is a text. -/
inductive Bound (resolver : Resolver) (declared : List Parameter) : PathParam → Prop where
  | named {parameter : Parameter} {type : TypeExpr} (present : parameter ∈ declared)
      (typed : Schema.TypedOr resolver (.scalar .string) parameter.schema type) :
      Bound resolver declared ⟨parameter.name, Identifier.ofName parameter.name, true, type⟩
  | alike {placeholder : String} {before after : List Parameter} {parameter : Parameter}
      {type : TypeExpr} (unnamed : ∀ other ∈ declared, other.name ≠ placeholder)
      (split : declared = before ++ parameter :: after)
      (same : Identifier.snake parameter.name = Identifier.snake placeholder)
      (first : ∀ other ∈ before, Identifier.snake other.name ≠ Identifier.snake placeholder)
      (typed : Schema.TypedOr resolver (.scalar .string) parameter.schema type) :
      Bound resolver declared ⟨placeholder, Identifier.ofName parameter.name, true, type⟩
  | free {placeholder : String}
      (unnamed : ∀ other ∈ declared, other.name ≠ placeholder ∧
        Identifier.snake other.name ≠ Identifier.snake placeholder) :
      Bound resolver declared ⟨placeholder, Identifier.ofName placeholder, true, .scalar .string⟩

theorem Bound.required {resolver : Resolver} {declared : List Parameter} {param : PathParam}
    (bound : Bound resolver declared param) : param.required = true := by
  cases bound <;> rfl

section Described

variable {resolver : Resolver} {name : String} {endpoint : Endpoint} {declared : List Parameter}
  {parts : OperationParts}

theorem PlaceholderTyped.bound {placeholder : String} {param : PathParam}
    (typed : PlaceholderTyped resolver declared placeholder param) : Bound resolver declared param := by
  cases typed with
  | matched found typed =>
    rcases Option.or_eq_some_iff.mp found with named | ⟨unnamed, alike⟩
    · have same := List.find?_some named
      obtain rfl := eq_of_beq same
      exact .named (List.mem_of_find?_eq_some named) typed
    · obtain ⟨same, before, after, split, first⟩ := List.find?_eq_some_iff_append.mp alike
      refine .alike ?_ split (eq_of_beq same) ?_ typed
      · simpa using unnamed
      · simpa using first
  | unmatched absent =>
    obtain ⟨unnamed, different⟩ := Option.or_eq_none_iff.mp absent
    exact .free fun other present => ⟨by simpa using List.find?_eq_none.mp unnamed other present,
      by simpa using List.find?_eq_none.mp different other present⟩

theorem Described.names (described : endpoint.Described resolver name declared parts) :
    parts.path.map (·.name) = placeholders (Route.parse endpoint.route) := by
  have each := InStep.map_eq described.path (f := id) (g := (·.name)) fun placeholder param typed => by
    cases typed <;> rfl
  rw [← each, List.map_id]

/-- What is cut off is the last placeholder with the last parameter. -/
theorem Described.cut (described : endpoint.Described resolver name declared parts)
    (cut : endpoint.cutsTrailingId = true) :
    ∃ front kept last, Route.parse endpoint.route = front ++ [.placeholder last.name] ∧
      parts.path = kept ++ [last] ∧ kept.map (·.name) = placeholders front := by
  obtain ⟨front, placeholder, ends⟩ :=
    Route.exists_of_endsWithPlaceholder (Bool.and_eq_true_iff.mp cut).2
  have names := described.names
  rw [ends, placeholders, List.filterMap_append] at names
  obtain ⟨kept, rest, path, front', rest'⟩ := List.map_eq_append_iff.mp names
  obtain ⟨last, rfl, rfl⟩ := List.map_eq_singleton_iff.mp rest'
  exact ⟨front, kept, last, ends, path, front'⟩

theorem allPathParams_assemble (described : endpoint.Described resolver name declared parts) :
    (endpoint.assemble name parts).descriptor.allPathParams = parts.path := by
  cases cut : endpoint.cutsTrailingId with
  | false => simp [assemble, Descriptor.allPathParams, cut]
  | true =>
    obtain ⟨-, kept, last, -, path, -⟩ := described.cut cut
    simp [assemble, Descriptor.allPathParams, cut, path]

end Described

/-- The path parameters and the route of a descriptor, as a template and the declared path parameters give
them. -/
structure FollowsRoute (resolver : Resolver) (endpoint : Endpoint) (template : List Route.Part)
    (declared : List Parameter) (descriptor : Descriptor) : Prop where
  names : descriptor.pathParams.map (·.name) ++ (descriptor.trailingId.map (·.name)).toList =
    placeholders template
  trailing : descriptor.trailingId.isSome ↔ endpoint.verb = .delete ∧
    ∃ name, '\x7d' ∉ name ∧ Route.LastSegment endpoint.route.toList ('\x7b' :: name ++ ['\x7d'])
  required : ∀ param ∈ descriptor.allPathParams, param.required = true
  bound : ∀ param ∈ descriptor.allPathParams, Bound resolver declared param
  route : ∃ shown, template = shown ++ (descriptor.trailingId.map fun last =>
      Route.Part.placeholder last.name).toList ∧
    Route.Interpolated shown descriptor.pathParams descriptor.route

theorem Described.followsRoute {resolver : Resolver} {endpoint : Endpoint} {name : String}
    {declared : List Parameter} {parts : OperationParts}
    (described : endpoint.Described resolver name declared parts)
    (rooted : endpoint.route.toList.head? = some '/')
    (within : ∀ name ∈ placeholders (Route.parse endpoint.route), '/' ∉ name.toList) :
    endpoint.FollowsRoute resolver (Route.parse endpoint.route) (located .path declared)
      (endpoint.assemble name parts).descriptor := by
  have names := described.names
  have trailing : endpoint.cutsTrailingId = true ↔ endpoint.verb = .delete ∧
      ∃ name, '\x7d' ∉ name ∧ Route.LastSegment endpoint.route.toList ('\x7b' :: name ++ ['\x7d']) := by
    rw [cutsTrailingId, Bool.and_eq_true, beq_iff_eq, Route.endsWithPlaceholder_iff rooted within]
  have bound : ∀ param ∈ parts.path, Bound resolver (located .path declared) param := by
    intro param present
    obtain ⟨placeholder, -, typed⟩ := InStep.left_of_right described.path present
    exact typed.bound
  rw [← allPathParams_assemble described] at bound
  cases cut : endpoint.cutsTrailingId with
  | false =>
    have shown := Route.interpolated_of_names names
    refine ⟨?_, ?_, fun param present => (bound param present).required, bound,
      Route.parse endpoint.route, ?_, ?_⟩
    · simpa [assemble, cut] using names
    · simpa [assemble, cut] using trailing
    · simp [assemble, cut]
    · simpa [assemble, cut] using shown
  | true =>
    obtain ⟨front, kept, last, ends, path, kept'⟩ := described.cut cut
    have shown := Route.interpolated_of_names kept'
    refine ⟨?_, ?_, fun param present => (bound param present).required, bound, front, ?_, ?_⟩
    · simpa [assemble, cut, path] using names
    · simpa [assemble, cut, path] using trailing
    · simp [assemble, cut, path, ends]
    · simpa [assemble, cut, path, ends] using shown

/-- Path parameters follow the route. -/
theorem synthesize_followsRoute {resolver : Resolver} {naming : Naming} {endpoint : Endpoint}
    {operation : SynthesizedOperation} {template : List Route.Part}
    (made : (endpoint.synthesize resolver naming).outcome = .ok operation)
    (rooted : endpoint.route.toList.head? = some '/')
    (reads : Route.Reads endpoint.route.toList template)
    (within : ∀ name ∈ placeholders template, '/' ∉ name.toList) :
    ∃ declared, endpoint.parameters resolver = .ok declared ∧
      (declared.map (·.name)).Nodup ∧
      endpoint.FollowsRoute resolver template (located .path declared) operation.descriptor := by
  obtain rfl := Route.parse_eq_iff.mpr reads
  obtain ⟨declared, parts, described, rfl⟩ := synthesize_described made
  exact ⟨declared, described.merged, mergeAll_names described.merged List.nodup_nil,
    described.followsRoute rooted within⟩

/-- Takes a member out of a team: the organization is declared in other words, and the team nowhere. -/
def removeMember : Endpoint where
  route := "/orgs/{org_id}/teams/{team-id}/{userId}"
  verb := .delete
  operation := { operationId := some "removeMember" }
  inherited := [
    .inline { name := "userId", location := .path, schema := some { type := some (.single "integer") } },
    .inline { name := "orgId", location := .path, schema := some { type := some (.single "string") } }]

def removeMemberTemplate : List Route.Part :=
  [.static "/orgs/", .placeholder "org_id", .static "/teams/", .placeholder "team-id", .static "/",
    .placeholder "userId"]

theorem removeMember_followsRoute : ∃ operation declared,
    (removeMember.synthesize ⟨{}, []⟩ Naming.none).outcome = .ok operation ∧
      Route.Reads removeMember.route.toList removeMemberTemplate ∧
      removeMember.parameters ⟨{}, []⟩ = .ok declared ∧ (declared.map (·.name)).Nodup ∧
      removeMember.FollowsRoute ⟨{}, []⟩ removeMemberTemplate (located .path declared)
        operation.descriptor := by
  obtain ⟨operation, made⟩ := exists_ok
    (show (removeMember.synthesize ⟨{}, []⟩ Naming.none).outcome.isOk = true by decide +kernel)
  have reads : Route.Reads removeMember.route.toList removeMemberTemplate :=
    Route.parse_eq_iff.mp (by decide +kernel)
  obtain ⟨declared, follows⟩ := synthesize_followsRoute made (by decide +kernel) reads (by decide +kernel)
  exact ⟨operation, declared, made, reads, follows⟩

end Endpoint
end TypedClient
