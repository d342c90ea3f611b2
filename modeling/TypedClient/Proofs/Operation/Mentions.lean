import TypedClient.Proofs.Operation.Parts
import TypedClient.Proofs.Synthesis.Definitions

/-!
The names that an operation mentions: names that its references resolve to, and names of the
definitions that come with it.
-/
namespace TypedClient

def Descriptor.types (descriptor : Descriptor) : List TypeExpr :=
  descriptor.bodyType :: descriptor.responseType :: descriptor.errorType :: descriptor.queryType ::
    descriptor.allPathParams.map (·.type)

def Parameter.references (parameter : Parameter) : List String :=
  parameter.schema.toList.flatMap Schema.references

/-- A reference among parameters stands for a parameter and for no type. -/
def Referable.parameterReferences : Referable Parameter → List String
  | .reference _ => []
  | .inline parameter => parameter.references

def Components.parameterReferences (components : Components) : List String :=
  components.parameters.flatMap (·.2.parameterReferences)

namespace Endpoint

/-- The references of an operation that stand for a type. -/
def references (endpoint : Endpoint) : List String :=
  (endpoint.inherited ++ endpoint.operation.parameters).flatMap (·.parameterReferences) ++
    endpoint.operation.requestBody.toList.flatMap (·.references (·.content.references)) ++
    endpoint.operation.responses.flatMap (·.2.references (·.content.references))

/-- The references of the responses of one class. -/
def responseReferences (status : StatusClass) (responses : List (String × Referable Response)) :
    List String :=
  (responses.filter fun entry => StatusClass.of entry.1 = status).flatMap
    (·.2.references (·.content.references))

/-- The references that an operation can mention, those of shared parameters included. -/
def reachable (resolver : Resolver) (endpoint : Endpoint) : List String :=
  resolver.components.parameterReferences ++ endpoint.references

section Described

variable {resolver : Resolver} {operation name : String} {endpoint : Endpoint}
  {declared : List Parameter} {parts : OperationParts}

theorem parameter_reachable {parameter : Parameter} (merged : endpoint.parameters resolver = .ok declared)
    (member : parameter ∈ declared) : parameter.references ⊆ endpoint.reachable resolver := by
  intro path given
  rcases mem_mergeAll merged member with none | ⟨item, present, found⟩
  · cases none
  rcases follow_origin found with rfl | ⟨key, shared⟩
  · refine List.mem_append_right _ (List.mem_append_left _ (List.mem_append_left _ ?_))
    exact List.mem_flatMap.mpr ⟨_, present, given⟩
  · exact List.mem_append_left _ (List.mem_flatMap.mpr ⟨_, shared, given⟩)

theorem mem_of_matching {placeholder : String} {parameter : Parameter}
    (found : matching placeholder declared = some parameter) : parameter ∈ declared := by
  rcases Option.or_eq_some_iff.mp found with same | ⟨-, alike⟩
  · exact List.mem_of_find?_eq_some same
  · exact List.mem_of_find?_eq_some alike

theorem Described.path_names (described : endpoint.Described resolver operation declared parts)
    {param : PathParam} (member : param ∈ parts.path) (mentioned : param.type.Mentions name) :
    resolver.Names (endpoint.reachable resolver) name := by
  obtain ⟨placeholder, -, typed⟩ := InStep.left_of_right described.path member
  cases typed with
  | matched found typed =>
    have present := (List.mem_filter.mp (mem_of_matching found)).1
    exact (typed.names (TypeExpr.mentions_scalar _) mentioned).mono
      (parameter_reachable described.merged present)
  | unmatched => exact (TypeExpr.mentions_scalar _ mentioned).elim

theorem Described.query_names (described : endpoint.Described resolver operation declared parts)
    {field : Field TypeExpr} (member : field ∈ parts.query) (mentioned : field.type.Mentions name) :
    resolver.Names (endpoint.reachable resolver) name := by
  obtain ⟨parameter, present, ⟨typed⟩⟩ := InStep.left_of_right described.query member
  exact (typed.names (TypeExpr.mentions_scalar _) mentioned).mono
    (parameter_reachable described.merged (List.mem_filter.mp present).1)

theorem ResponseTyped.names {item : Referable Response} {type : TypeExpr}
    (typed : ResponseTyped resolver item (some type)) (mentioned : type.Mentions name) :
    resolver.Names (item.references (·.content.references)) name := by
  cases typed with
  | reference _ resolved =>
    obtain rfl := TypeExpr.mentions_named.mp mentioned
    exact ⟨_, List.mem_singleton_self _, resolved⟩
  | typed given typed =>
    exact (typed.names mentioned).mono (by simp [Referable.references, Content.references, given])

theorem ResponsesTyped.names {status : StatusClass} {responses : List (String × Referable Response)}
    {types : List TypeExpr} {type : TypeExpr} (typed : ResponsesTyped resolver status responses types)
    (member : type ∈ types) (mentioned : type.Mentions name) :
    resolver.Names (responseReferences status responses) name := by
  obtain ⟨contributed, rfl, each⟩ := typed
  obtain ⟨entry, present, typed⟩ := InStep.left_of_right each (List.reduceOption_mem_iff.mp member)
  exact (typed.names mentioned).mono fun path given => List.mem_flatMap.mpr ⟨entry, present, given⟩

theorem responses_reachable {status : StatusClass} :
    responseReferences status endpoint.operation.responses ⊆ endpoint.reachable resolver := by
  intro path given
  obtain ⟨entry, present, given⟩ := List.mem_flatMap.mp given
  refine List.mem_append_right _ (List.mem_append_right _ ?_)
  exact List.mem_flatMap.mpr ⟨entry, (List.mem_filter.mp present).1, given⟩

theorem body_reachable : endpoint.operation.requestBody.toList.flatMap
    (·.references (·.content.references)) ⊆ endpoint.reachable resolver := by
  intro path given
  exact List.mem_append_right _ (List.mem_append_left _ (List.mem_append_right _ given))

theorem BodyTyped.names {body : Option (Referable RequestBody)} {part : BodyPart}
    (typed : BodyTyped resolver operation body part) :
    (part.type.Mentions name →
      resolver.Names (body.toList.flatMap (·.references (·.content.references))) name ∨
        ∃ entry ∈ part.auxiliary, entry.definition.name = name) ∧
    ∀ entry ∈ part.auxiliary, entry.definition.type.Mentions name →
      resolver.Names (body.toList.flatMap (·.references (·.content.references))) name := by
  cases typed with
  | absent | untyped => simp
  | reference _ resolved =>
    refine ⟨fun mentioned => .inl ?_, by simp⟩
    obtain rfl := TypeExpr.mentions_named.mp mentioned
    exact ⟨_, by simp [Referable.references], resolved⟩
  | referring given _ typed =>
    refine ⟨fun mentioned => .inl ?_, by simp⟩
    exact (typed.names mentioned).mono (by simp [Referable.references, Content.references, given])
  | defined given _ typed =>
    refine ⟨fun mentioned => .inr ?_, fun entry member mentioned => ?_⟩
    · exact ⟨_, List.mem_singleton_self _, TypeExpr.mentions_named.mp mentioned⟩
    · obtain rfl := List.mem_singleton.mp member
      exact (typed.names mentioned).mono (by simp [Referable.references, Content.references, given])

theorem successType_names {types : List TypeExpr}
    (mentioned : (successType operation types).1.Mentions name) :
    (∃ type ∈ types, type.Mentions name) ∨
      ∃ entry ∈ (successType operation types).2, entry.definition.name = name := by
  rcases successType_cases operation types with shown | ⟨held, union, shown⟩ | shown <;>
    rw [shown] at mentioned ⊢
  · exact (TypeExpr.mentions_scalar _ mentioned).elim
  · exact .inl (TypeExpr.mentions_of_unionOf (union ▸ mentioned))
  · exact .inr ⟨_, List.mem_singleton_self _, TypeExpr.mentions_named.mp mentioned⟩

theorem successType_definition {types : List TypeExpr} {entry : Registration}
    (member : entry ∈ (successType operation types).2)
    (mentioned : entry.definition.type.Mentions name) : ∃ type ∈ types, type.Mentions name := by
  rcases successType_cases operation types with shown | ⟨held, -, shown⟩ | shown <;>
    rw [shown] at member
  · cases member
  · cases member
  · obtain rfl := List.mem_singleton.mp member
    exact TypeExpr.mentions_of_unionOf mentioned

theorem Described.auxiliary_names (described : endpoint.Described resolver operation declared parts)
    {entry : Registration} (member : entry ∈ (endpoint.assemble operation parts).auxiliary)
    (mentioned : entry.definition.type.Mentions name) :
    resolver.Names (endpoint.reachable resolver) name := by
  simp only [auxiliary_assemble, List.mem_append] at member
  rcases member with (query | body) | response
  · obtain rfl := mem_queryDefinition query
    obtain ⟨field, present, mentioned⟩ : ∃ field ∈ parts.query, field.type.Mentions name := by
      simpa [auxiliary] using mentioned
    exact described.query_names present mentioned
  · exact (described.body.names.2 entry body mentioned).mono body_reachable
  · obtain ⟨type, present, mentioned⟩ := successType_definition response mentioned
    exact (described.success.names present mentioned).mono responses_reachable

theorem mem_allPathParams {param : PathParam}
    (member : param ∈ (endpoint.assemble operation parts).descriptor.allPathParams) :
    param ∈ parts.path := by
  simp only [assemble, Descriptor.allPathParams] at member
  split at member
  · rcases List.mem_append.mp member with kept | last
    · exact List.dropLast_subset _ kept
    · exact List.mem_of_getLast? (Option.mem_toList.mp last)
  · simpa using member

theorem queryType_names
    (mentioned : (endpoint.assemble operation parts).descriptor.queryType.Mentions name) :
    ∃ entry ∈ queryDefinition operation parts.query, entry.definition.name = name := by
  simp only [assemble, Descriptor.queryType] at mentioned
  split at mentioned
  · rename_i shown held
    obtain ⟨entry, first, rfl⟩ := Option.map_eq_some_iff.mp held
    exact ⟨entry, List.mem_of_head? first, TypeExpr.mentions_named.mp mentioned⟩
  · exact (TypeExpr.mentions_scalar _ mentioned).elim

theorem errorType_names {types : List TypeExpr} (mentioned : (errorType types).Mentions name) :
    ∃ type ∈ types, type.Mentions name := by
  unfold errorType at mentioned
  split at mentioned
  · exact (TypeExpr.mentions_scalar _ mentioned).elim
  · exact TypeExpr.mentions_of_unionOf mentioned

theorem Described.descriptor_names (described : endpoint.Described resolver operation declared parts)
    {type : TypeExpr} (member : type ∈ (endpoint.assemble operation parts).descriptor.types)
    (mentioned : type.Mentions name) :
    resolver.Names (endpoint.reachable resolver) name ∨
      ∃ entry ∈ (endpoint.assemble operation parts).auxiliary, entry.definition.name = name := by
  simp only [Descriptor.types, List.mem_cons, List.mem_map] at member
  rcases member with rfl | rfl | rfl | rfl | ⟨param, present, rfl⟩
  · rcases described.body.names.1 mentioned with names | ⟨entry, member, same⟩
    · exact .inl (names.mono body_reachable)
    · exact .inr ⟨entry, List.mem_append_left _ (List.mem_append_right _ member), same⟩
  · rcases successType_names mentioned with ⟨type, present, mentioned⟩ | ⟨entry, member, same⟩
    · exact .inl ((described.success.names present mentioned).mono responses_reachable)
    · exact .inr ⟨entry, List.mem_append_right _ member, same⟩
  · obtain ⟨type, present, mentioned⟩ := errorType_names mentioned
    exact .inl ((described.error.names present mentioned).mono responses_reachable)
  · obtain ⟨entry, member, same⟩ := queryType_names mentioned
    exact .inr ⟨entry, List.mem_append_left _ (List.mem_append_left _ member), same⟩
  · exact .inl (described.path_names (mem_allPathParams present) mentioned)

end Described

end Endpoint
end TypedClient
