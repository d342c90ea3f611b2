import TypedClient.Proofs.Generation.Run
import TypedClient.Proofs.Operation.Canonical

/-!
Everything that synthesis gives for a document is canonical, at every depth and also where an index type
is widened for writing.
-/
namespace TypedClient

theorem Document.SchemasKeyed.endpoint {document : Document} (keyed : document.SchemasKeyed)
    {endpoint : Endpoint} (member : endpoint ∈ document.endpoints) : endpoint.Keyed := by
  obtain ⟨⟨route, item⟩, path, member⟩ := List.mem_flatMap.mp member
  obtain ⟨⟨key, operation⟩, present, made⟩ := List.mem_filterMap.mp member
  obtain ⟨verb, -, rfl⟩ := Option.map_eq_some_iff.mp made
  exact ⟨(keyed.paths _ path).parameters, (keyed.paths _ path).operations _ present⟩

namespace Generation

/-- The type expressions of all definitions and descriptors. -/
def expressions (generation : Generation) : List TypeExpr :=
  generation.types.definitions.map (·.type) ++ generation.components.flatMap (·.types)

structure Canonical (generation : Generation) : Prop where
  expressions : ∀ type ∈ generation.expressions, type.Canonical
  /-- Index types as they are written, at any depth. -/
  indexTypes : ∀ type ∈ generation.expressions, ∀ fields index,
    .object fields (some index) ∈ type.subterms → (TypeExpr.indexType fields index).Canonical
  declarations : ∀ definition ∈ generation.types.definitions,
    definition.declaration = .structural ↔ ∃ fields index, definition.type = .object fields index

variable {naming : Naming} {document : Document}

theorem Run.expression_canonical (run : Run naming document) (keyed : document.SchemasKeyed)
    {type : TypeExpr} (member : type ∈ run.generation.expressions) : type.Canonical := by
  rcases List.mem_append.mp member with defined | shown
  · obtain ⟨definition, held, rfl⟩ := List.mem_map.mp defined
    obtain ⟨entry, stands, rfl⟩ := List.mem_map.mp held
    rcases run.origin_of_mem_log (run.mem_log_of_mem_entries stands) with
      ⟨component, declared, registers⟩ | ⟨endpoint, listed, declared, parts, described, auxiliary⟩
    · have schemas := normalizeDiscriminators_keyed run.normalized keyed.components.schemas
      have defines := Component.definition_defines registers.definition
      exact defines.canonical schemas keyed.components declared
    · exact described.auxiliary_canonical (keyed.endpoint listed) keyed.components auxiliary
  · obtain ⟨descriptor, present, shown⟩ := List.mem_flatMap.mp shown
    obtain ⟨operation, synthesized, rfl⟩ := List.mem_map.mp present
    obtain ⟨endpoint, listed, declared, parts, described, rfl⟩ := run.described_of_mem synthesized
    exact described.descriptor_canonical (keyed.endpoint listed) keyed.components shown

theorem structural_iff (definition : Definition) :
    definition.declaration = .structural ↔
      ∃ fields index, definition.type = .object fields index := by
  unfold Definition.declaration
  cases definition.type <;> simp [TypeExpr.isObject]

/-- Whatever a document is turned into, no expression in it is built with less than canonical parts. -/
theorem ofDocument_canonical {generation : Generation} (keyed : document.SchemasKeyed)
    (made : (ofDocument naming document).outcome = .ok generation) : generation.Canonical := by
  obtain ⟨run, rfl⟩ := ofDocument_run made
  refine ⟨fun type member => ?_, fun type member fields index inside => ?_, fun definition _ => ?_⟩
  · exact run.expression_canonical keyed member
  · exact ((run.expression_canonical keyed member).subterm inside).indexType
  · exact structural_iff definition

/-- A level is one of two words or a number, said by a union in a union, and two codes answer with a
list of levels. -/
def levelsDocument : Document where
  paths := [("/levels", { operations := [("get", {
    operationId := some "listLevels"
    responses := [("200", levels), ("203", levels)] })] })]
  components := { schemas := [("Level", { oneOf := some [word, { anyOf := some [word, number] }] })] }
where
  word : Schema :=
    { type := some (.single "string"), enum := some [.text "low", .text "high", .text "low"] }
  number : Schema := { type := some (.single "integer"), nullable := true }
  levels : Referable Response := .inline { content := [("application/json", { schema := some {
    type := some (.single "array"), items := some { ref := some "#/components/schemas/Level" } } })] }

theorem levelsDocument_keyed : levelsDocument.SchemasKeyed := by
  have leaf : ∀ facets : Facets, Schema.Keyed { toFacets := facets } := fun facets =>
    Schema.keyed_undeclared rfl fun _ none => nomatch none
  have level : ∀ entry ∈ levelsDocument.components.schemas, entry.2.Keyed := by
    intro entry member
    obtain rfl := List.mem_singleton.mp member
    refine Schema.keyed_undeclared rfl fun child member => ?_
    rcases List.mem_pair.mp member with rfl | rfl
    · exact leaf _
    · refine Schema.keyed_undeclared rfl fun child member => ?_
      rcases List.mem_pair.mp member with rfl | rfl <;> exact leaf _
  have levels : levelsDocument.levels.Inside (·.content.Keyed) := by
    rintro _ ⟨⟩ entry member schema declared
    obtain rfl := List.mem_singleton.mp member
    obtain rfl := Option.some.inj declared
    refine Schema.keyed_undeclared rfl fun child member => ?_
    obtain rfl := List.mem_singleton.mp member
    exact leaf _
  refine ⟨fun path member => ?_, level, fun _ none => (nomatch none), fun _ none => (nomatch none),
    fun _ none => nomatch none⟩
  obtain rfl := List.mem_singleton.mp member
  refine ⟨fun _ none => (nomatch none), fun operation member => ?_⟩
  obtain rfl := List.mem_singleton.mp member
  refine ⟨fun _ none => (nomatch none), fun _ none => (nomatch none), fun entry member => ?_⟩
  rcases List.mem_pair.mp member with rfl | rfl <;> exact levels

theorem levelsDocument_canonical : ∃ generation,
    (ofDocument Naming.none levelsDocument).outcome = .ok generation ∧ generation.Canonical := by
  obtain ⟨generation, made⟩ := exists_ok
    (show (ofDocument Naming.none levelsDocument).outcome.isOk = true by decide +kernel)
  exact ⟨generation, made, ofDocument_canonical levelsDocument_keyed made⟩

end Generation
end TypedClient
