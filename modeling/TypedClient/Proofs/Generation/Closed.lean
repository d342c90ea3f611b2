import TypedClient.Proofs.Generation.Run
import TypedClient.Proofs.Operation.Mentions

/-!
Names in the output of synthesis. Each is declared, except that a reference to a parameter where a type
is expected names a type that no component declares.
-/
namespace TypedClient

namespace Document

/-- The references of a document that stand for a type. -/
def typeReferences (document : Document) : List String :=
  document.components.schemas.flatMap (·.2.references) ++
    document.components.responses.flatMap (·.2.references (·.content.references)) ++
    document.components.requestBodies.flatMap (·.2.references (·.content.references)) ++
    document.components.parameterReferences ++
    document.endpoints.flatMap (·.references)

/-- Some reference that stands for a type points at this parameter. -/
def TypesParameter (document : Document) (key : String) : Prop :=
  ∃ path ∈ document.typeReferences, Target.parse path = .ok ⟨.parameter, key⟩

end Document

namespace Generation

def Mentions (generation : Generation) (name : String) : Prop :=
  (∃ definition ∈ generation.types.definitions, definition.type.Mentions name) ∨
    ∃ descriptor ∈ generation.components, ∃ type ∈ descriptor.types, type.Mentions name

/-- Every name that is mentioned is declared. -/
def Closed (generation : Generation) : Prop :=
  ∀ name, generation.Mentions name → name ∈ generation.types.names

namespace Run

variable {naming : Naming} {document : Document} (run : Run naming document)

theorem declared_references {component : Component} (declared : component ∈ run.resolver.declared) :
    component.references ⊆ document.typeReferences := by
  intro path given
  simp only [Resolver.declared, List.mem_append, List.mem_map] at declared
  simp only [Document.typeReferences, List.mem_append, List.mem_flatMap]
  rcases declared with (⟨entry, member, rfl⟩ | ⟨entry, member, rfl⟩) | ⟨entry, member, rfl⟩
  · have kept := normalizeDiscriminators_keeps run.normalized
    obtain ⟨original, present, keeps⟩ := InStep.left_of_right kept member
    exact .inl (.inl (.inl (.inl ⟨original, present, keeps.references given⟩)))
  · exact .inl (.inl (.inl (.inr ⟨entry, member, given⟩)))
  · exact .inl (.inl (.inr ⟨entry, member, given⟩))

theorem reachable_references {endpoint : Endpoint} (member : endpoint ∈ document.endpoints) :
    endpoint.reachable run.resolver ⊆ document.typeReferences := by
  intro path given
  rcases List.mem_append.mp given with shared | own
  · exact List.mem_append_left _ (List.mem_append_right _ shared)
  · exact List.mem_append_right _ (List.mem_flatMap.mpr ⟨endpoint, member, own⟩)

theorem log_names {entry : Registration} {name : String} (member : entry ∈ run.log)
    (mentioned : entry.definition.type.Mentions name) :
    run.resolver.Names document.typeReferences name := by
  rcases run.origin_of_mem_log member with ⟨component, declared, registers⟩ |
    ⟨endpoint, listed, declared, parts, described, auxiliary⟩
  · have defines := Component.definition_defines registers.definition
    exact (defines.names mentioned).mono (run.declared_references declared)
  · exact (described.auxiliary_names auxiliary mentioned).mono (run.reachable_references listed)

theorem descriptor_names {descriptor : Descriptor} {type : TypeExpr} {name : String}
    (member : descriptor ∈ run.generation.components) (shown : type ∈ descriptor.types)
    (mentioned : type.Mentions name) :
    run.resolver.Names document.typeReferences name ∨ name ∈ run.generation.types.names := by
  obtain ⟨operation, present, rfl⟩ := List.mem_map.mp member
  obtain ⟨endpoint, listed, declared, parts, described, rfl⟩ := run.described_of_mem present
  rcases described.descriptor_names shown mentioned with names | ⟨entry, auxiliary, same⟩
  · exact .inl (names.mono (run.reachable_references listed))
  · refine .inr (run.mem_names.mpr ⟨entry, List.mem_append_right _ ?_, same⟩)
    exact List.mem_flatMap.mpr ⟨_, present, auxiliary⟩

theorem names_declared {name : String} (names : run.resolver.Names document.typeReferences name) :
    name ∈ run.generation.types.names ∨
      ∃ key, document.TypesParameter key ∧ name = Root.parameter.typeName key := by
  obtain ⟨path, given, resolved⟩ := names
  rcases Resolver.declared_of_resolve resolved with ⟨component, declared, rfl⟩ | ⟨key, parsed, rfl⟩
  · obtain ⟨entry, registered, registers⟩ := InStep.right_of_left run.components declared
    have defines := Component.definition_defines registers.definition
    exact .inl (run.mem_names.mpr ⟨entry, List.mem_append_left _ registered, defines.name⟩)
  · exact .inr ⟨key, ⟨path, given, parsed⟩, rfl⟩

/-- A mentioned name is declared, or it is the name of a parameter that a type refers to. -/
theorem mentions_declared {name : String} (mentioned : run.generation.Mentions name) :
    name ∈ run.generation.types.names ∨
      ∃ key, document.TypesParameter key ∧ name = Root.parameter.typeName key := by
  rcases mentioned with ⟨definition, held, mentioned⟩ | ⟨descriptor, member, type, shown, mentioned⟩
  · obtain ⟨entry, present, rfl⟩ :=
      List.mem_map.mp (show definition ∈ run.generation.types.entries.map (·.definition) from held)
    exact run.names_declared (run.log_names (run.mem_log_of_mem_entries present) mentioned)
  · rcases run.descriptor_names member shown mentioned with names | declared
    · exact run.names_declared names
    · exact .inl declared

end Run

/-- The output is closed exactly if every parameter that it mentions as a type has its name declared
by something else. -/
theorem closed_iff_parameters_declared {naming : Naming} {document : Document}
    {generation : Generation} (made : (ofDocument naming document).outcome = .ok generation) :
    generation.Closed ↔
      ∀ key, document.TypesParameter key → generation.Mentions (Root.parameter.typeName key) →
        Root.parameter.typeName key ∈ generation.types.names := by
  obtain ⟨run, rfl⟩ := ofDocument_run made
  constructor
  · intro closed key _ mentioned
    exact closed _ mentioned
  · intro parameters name mentioned
    rcases run.mentions_declared mentioned with declared | ⟨key, refers, rfl⟩
    · exact declared
    · exact parameters key refers mentioned

/-- A list of pets behind a response component, with a shared parameter. -/
def petsDocument : Document where
  paths := [("/pets", {
    operations := [("get", {
      operationId := some "listPets"
      parameters := [.reference "#/components/parameters/limit"]
      responses := [("200", .reference "#/components/responses/Pets")] })] })]
  components := {
    schemas := [("Pet", { type := some (.single "object") })]
    responses := [("Pets", .inline { content := [("application/json", { schema := some {
      type := some (.single "array")
      items := some { ref := some "#/components/schemas/Pet" } } })] })]
    parameters := [("limit", .inline { name := "limit", location := .query })] }

theorem petsDocument_closed : ∃ generation,
    (ofDocument Naming.none petsDocument).outcome = .ok generation ∧ generation.Closed := by
  obtain ⟨generation, made⟩ := exists_ok
    (show (ofDocument Naming.none petsDocument).outcome.isOk = true by decide +kernel)
  refine ⟨generation, made, (closed_iff_parameters_declared made).mpr fun key refers => ?_⟩
  obtain ⟨path, given, parsed⟩ := refers
  have others : ∀ path ∈ petsDocument.typeReferences,
      (Target.parse path).toOption.map (·.root) ≠ some .parameter := by decide +kernel
  exact (others path given (by rw [parsed]; rfl)).elim

/-- A schema that is a reference to a parameter. -/
def limitDocument : Document where
  components := {
    schemas := [("Limit", { ref := some "#/components/parameters/limit" })]
    parameters := [("limit", .inline { name := "limit", location := .query })] }

theorem limitDocument_made : (ofDocument Naming.none limitDocument).outcome = .ok
    ⟨⟨[⟨⟨"Limit", .named "LimitParameter", none⟩, .schema "Limit"⟩], []⟩, []⟩ := by
  rfl

theorem limitDocument_open : ∃ generation,
    (ofDocument Naming.none limitDocument).outcome = .ok generation ∧ ¬generation.Closed := by
  refine ⟨_, limitDocument_made, fun closed => ?_⟩
  have declared := closed "LimitParameter"
    (.inl ⟨_, List.mem_singleton_self _, TypeExpr.mentions_named.mpr rfl⟩)
  revert declared
  decide

end Generation
end TypedClient
