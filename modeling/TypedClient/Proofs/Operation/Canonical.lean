import TypedClient.Proofs.Document.Keyed
import TypedClient.Proofs.Operation.Mentions
import TypedClient.Proofs.Synthesis.Canonical

/-!
The types of an operation and of its definitions are canonical. Merging keeps one parameter of each
name, so that the fields of a query object have distinct names.
-/
namespace TypedClient

theorem Component.Defines.canonical {resolver : Resolver} {component : Component}
    {definition : Definition} (defines : Defines resolver component definition)
    (schemas : ∀ entry ∈ resolver.schemas, entry.2.Keyed) (keyed : resolver.components.SchemasKeyed)
    (declared : component ∈ resolver.declared) : definition.type.Canonical := by
  simp only [Resolver.declared, List.mem_append, List.mem_map] at declared
  rcases declared with (⟨entry, member, rfl⟩ | ⟨entry, member, rfl⟩) | ⟨entry, member, rfl⟩
  · cases defines with
    | schema typed => exact (schemas entry member).typedCanonically _ typed
  · generalize given : entry.2 = item at defines
    cases defines with
    | response typed =>
      have content := keyed.responses entry member _ given
      exact typed.canonical (TypeExpr.canonical_scalar _) fun _ => content.schema
    | responseAlias => exact TypeExpr.canonical_named _
  · generalize given : entry.2 = item at defines
    cases defines with
    | requestBody typed =>
      have content := keyed.requestBodies entry member _ given
      exact typed.canonical (TypeExpr.canonical_scalar _) fun _ => content.schema
    | requestBodyAlias => exact TypeExpr.canonical_named _

namespace Endpoint

structure Keyed (endpoint : Endpoint) : Prop where
  inherited : ∀ item ∈ endpoint.inherited, item.Inside Parameter.Keyed
  operation : endpoint.operation.Keyed

/-! ### Merged parameters -/

theorem merge_names {merged : List Parameter} (distinct : (merged.map (·.name)).Nodup)
    (parameter : Parameter) : ((merge merged parameter).map (·.name)).Nodup := by
  unfold merge
  split
  · exact distinct
  · rw [List.map_append, List.map_singleton]
    refine List.nodup_append.mpr ⟨?_, List.nodup_singleton _, ?_⟩
    · exact distinct.sublist (List.filter_sublist.map _)
    · intro name held last member same
      obtain ⟨other, kept, rfl⟩ := List.mem_map.mp held
      obtain rfl := List.mem_singleton.mp member
      have different := (List.mem_filter.mp kept).2
      rw [same, beq_self_eq_true] at different
      cases different

theorem mergeAll_names {resolver : Resolver} {items : List (Referable Parameter)}
    {merged declared : List Parameter} (made : mergeAll resolver merged items = .ok declared)
    (distinct : (merged.map (·.name)).Nodup) : (declared.map (·.name)).Nodup := by
  induction items generalizing merged with
  | nil =>
    obtain rfl := Except.ok.inj made
    exact distinct
  | cons item rest ih =>
    rw [mergeAll] at made
    obtain ⟨parameter, -, made⟩ := bind_ok made
    exact ih made (merge_names distinct parameter)

section Described

variable {resolver : Resolver} {operation : String} {endpoint : Endpoint} (keyed : endpoint.Keyed)
include keyed

/-! ### Bodies and responses -/

theorem ResponsesTyped.canonical {status : StatusClass} {types : List TypeExpr} {type : TypeExpr}
    (typed : ResponsesTyped resolver status endpoint.operation.responses types)
    (member : type ∈ types) : type.Canonical := by
  obtain ⟨contributed, rfl, each⟩ := typed
  obtain ⟨entry, present, typed⟩ := InStep.left_of_right each (List.reduceOption_mem_iff.mp member)
  generalize given : entry.2 = item at typed
  cases typed with
  | reference => exact TypeExpr.canonical_named _
  | typed declared typed =>
    have content := keyed.operation.responses entry (List.mem_filter.mp present).1 _ given
    exact (content.schema declared).typedCanonically _ typed

theorem BodyTyped.canonical {part : BodyPart}
    (typed : BodyTyped resolver operation endpoint.operation.requestBody part) :
    part.type.Canonical ∧ ∀ entry ∈ part.auxiliary, entry.definition.type.Canonical := by
  generalize given : endpoint.operation.requestBody = body at typed
  cases typed with
  | absent | untyped | reference => simp
  | referring declared _ typed =>
    have content := keyed.operation.requestBody _ given _ rfl
    exact ⟨(content.schema declared).typedCanonically _ typed, fun _ none => nomatch none⟩
  | defined declared _ typed =>
    have content := keyed.operation.requestBody _ given _ rfl
    refine ⟨TypeExpr.canonical_named _, fun entry member => ?_⟩
    obtain rfl := List.mem_singleton.mp member
    exact (content.schema declared).typedCanonically _ typed

omit keyed in
theorem successType_canonical {types : List TypeExpr} (each : ∀ type ∈ types, type.Canonical) :
    (successType operation types).1.Canonical ∧
      ∀ entry ∈ (successType operation types).2, entry.definition.type.Canonical := by
  rcases successType_cases operation types with shown | ⟨name, -, shown⟩ | shown <;> rw [shown]
  · exact ⟨TypeExpr.canonical_scalar _, fun _ none => nomatch none⟩
  · exact ⟨TypeExpr.canonical_named _, fun _ none => nomatch none⟩
  · refine ⟨TypeExpr.canonical_named _, fun entry member => ?_⟩
    obtain rfl := List.mem_singleton.mp member
    exact TypeExpr.canonical_unionOf each

omit keyed in
theorem errorType_canonical {types : List TypeExpr} (each : ∀ type ∈ types, type.Canonical) :
    (errorType types).Canonical := by
  unfold errorType
  split
  · exact TypeExpr.canonical_scalar _
  · exact TypeExpr.canonical_unionOf each

omit keyed in
theorem queryType_canonical (descriptor : Descriptor) : descriptor.queryType.Canonical := by
  unfold Descriptor.queryType
  split
  · exact TypeExpr.canonical_named _
  · exact TypeExpr.canonical_scalar _

/-! ### Parameters -/

variable {declared : List Parameter} {parts : OperationParts}
  (components : resolver.components.SchemasKeyed)
include components

theorem parameter_keyed {parameter : Parameter} (merged : endpoint.parameters resolver = .ok declared)
    (member : parameter ∈ declared) : parameter.Keyed := by
  rcases mem_mergeAll merged member with none | ⟨item, present, found⟩
  · cases none
  rcases follow_origin found with rfl | ⟨key, shared⟩
  · rcases List.mem_append.mp present with inherited | own
    · exact keyed.inherited _ inherited parameter rfl
    · exact keyed.operation.parameters _ own parameter rfl
  · exact components.parameters _ shared parameter rfl

theorem Described.path_canonical (described : endpoint.Described resolver operation declared parts)
    {param : PathParam} (member : param ∈ parts.path) : param.type.Canonical := by
  obtain ⟨placeholder, -, typed⟩ := InStep.left_of_right described.path member
  cases typed with
  | matched found typed =>
    have present := (List.mem_filter.mp (mem_of_matching found)).1
    exact typed.canonical (TypeExpr.canonical_scalar _)
      (parameter_keyed keyed components described.merged present)
  | unmatched => exact TypeExpr.canonical_scalar _

theorem Described.query_canonical (described : endpoint.Described resolver operation declared parts) :
    (TypeExpr.object parts.query none).Canonical := by
  have names : (declared.filter (·.location == .query)).map (·.name) = parts.query.map (·.name) :=
    InStep.map_eq described.query fun _ _ ⟨_⟩ => rfl
  refine TypeExpr.canonical_object ?_ (fun field present => ?_) fun _ none => nomatch none
  · rw [← names]
    exact (mergeAll_names described.merged List.nodup_nil).sublist (List.filter_sublist.map _)
  · obtain ⟨parameter, member, ⟨typed⟩⟩ := InStep.left_of_right described.query present
    exact typed.canonical (TypeExpr.canonical_scalar _)
      (parameter_keyed keyed components described.merged (List.mem_filter.mp member).1)

/-! ### The assembled operation -/

theorem Described.auxiliary_canonical
    (described : endpoint.Described resolver operation declared parts) {entry : Registration}
    (member : entry ∈ (endpoint.assemble operation parts).auxiliary) :
    entry.definition.type.Canonical := by
  simp only [auxiliary_assemble, List.mem_append] at member
  rcases member with (query | body) | response
  · obtain rfl := mem_queryDefinition query
    exact described.query_canonical keyed components
  · exact (described.body.canonical keyed).2 entry body
  · exact (successType_canonical fun _ => described.success.canonical keyed).2 entry response

theorem Described.descriptor_canonical
    (described : endpoint.Described resolver operation declared parts) {type : TypeExpr}
    (member : type ∈ (endpoint.assemble operation parts).descriptor.types) : type.Canonical := by
  simp only [Descriptor.types, List.mem_cons, List.mem_map] at member
  rcases member with rfl | rfl | rfl | rfl | ⟨param, present, rfl⟩
  · exact (described.body.canonical keyed).1
  · exact (successType_canonical fun _ => described.success.canonical keyed).1
  · exact errorType_canonical fun _ => described.error.canonical keyed
  · exact queryType_canonical _
  · exact described.path_canonical keyed components (mem_allPathParams present)

end Described

end Endpoint
end TypedClient
