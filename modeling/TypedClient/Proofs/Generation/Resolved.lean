import TypedClient.Proofs.Generation.Run
import TypedClient.Proofs.Synthesis.Definitions
import TypedClient.Proofs.Synthesis.Resolution

/-!
References inside the schemas of a document. A run succeeds only if every reference that is read points
at a component of the document. What is not read may point anywhere.
-/
namespace TypedClient

theorem Component.schemaDefinition_succeeds_iff {resolver : Resolver} {key : String} {node : Schema} :
    (schemaDefinition resolver key node).Succeeds ↔
      ∀ path, node.Refers path → ∃ name, resolver.resolve path = .ok name := by
  constructor
  · rintro ⟨definition, made⟩ path refers
    cases schemaDefinition_defines made with
    | schema typed => exact typed.resolves refers
  · intro resolves
    unfold schemaDefinition
    split
    · rename_i path given
      have resolved := resolves path (.here (Schema.shape_of_ref given))
      exact .bind resolved fun _ => .bind (.pure _) fun _ => .pure _
    · exact .bind (Schema.synthesizes_iff_resolves.mpr resolves _) fun _ => .pure _

theorem Component.schemaDefinition_of_type {resolver : Resolver} {node : Schema} {type : TypeExpr}
    (typed : node.HasType resolver type) (key : String) :
    (schemaDefinition resolver key node).outcome =
      .ok ⟨Root.schema.typeName key, type, DocComment.ofTexts node.description.toList⟩ := by
  obtain ⟨definition, made⟩ : (schemaDefinition resolver key node).Succeeds :=
    schemaDefinition_succeeds_iff.mpr fun _ refers => typed.resolves refers
  cases schemaDefinition_defines made with
  | schema typed' =>
    obtain rfl := typed.unique typed'
    exact made

namespace Document

/-- References are looked up among the components as the document gives them. -/
def resolver (document : Document) : Resolver :=
  ⟨document.components, document.components.schemas⟩

/-- The reference has one of the four roots, and the document has a component of its key there. -/
def Provides (document : Document) (path : String) : Prop :=
  ∃ target, Target.parse path = .ok target ∧ document.resolver.contains target = true

variable {document : Document} {normalized : List (String × Schema)}

theorem contains_normalized
    (made : (normalizeDiscriminators document.components.schemas).outcome = .ok normalized)
    (target : Target) :
    Resolver.contains ⟨document.components, normalized⟩ target =
      document.resolver.contains target := by
  have keys := InStep.map_eq (normalizeDiscriminators_keeps made) fun _ _ keeps => keeps.key.symm
  obtain ⟨root, key⟩ := target
  cases root with
  | schema => exact Entries.has_congr keys.symm key
  | response | parameter | requestBody => rfl

theorem resolve_normalized
    (made : (normalizeDiscriminators document.components.schemas).outcome = .ok normalized)
    (path : String) :
    Resolver.resolve ⟨document.components, normalized⟩ path = document.resolver.resolve path := by
  simp only [Resolver.resolve, contains_normalized made]

end Document

namespace Generation

/-- Every reference that is read in a schema, once discriminators are pinned, has its component. -/
theorem ofDocument_resolves {naming : Naming} {document : Document} {generation : Generation}
    (made : (ofDocument naming document).outcome = .ok generation) :
    ∃ schemas, (normalizeDiscriminators document.components.schemas).outcome = .ok schemas ∧
      ∀ entry ∈ schemas, ∀ path, entry.2.Refers path → document.Provides path := by
  obtain ⟨run, rfl⟩ := ofDocument_run made
  refine ⟨run.schemas, run.normalized, fun entry member path refers => ?_⟩
  have declared : Component.schema entry.1 entry.2 ∈ run.resolver.declared := by
    simp [Resolver.declared, Run.resolver, member]
  obtain ⟨registered, -, registers⟩ := InStep.right_of_left run.components declared
  obtain ⟨name, resolved⟩ :=
    Component.schemaDefinition_succeeds_iff.mp ⟨_, registers.definition⟩ path refers
  obtain ⟨target, parsed, present, -⟩ := Resolver.parse_of_resolve resolved
  exact ⟨target, parsed, (Document.contains_normalized run.normalized target).symm.trans present⟩

/-- Dogs have a kind, which is pinned, and a list of owners. -/
def kennelDocument : Document where
  components := {
    schemas := [
      ("Pet", {
        oneOf := some [{ ref := some "#/components/schemas/Dog" }]
        discriminator := some { property := "kind", mapping := [("dog", "Dog")] } }),
      ("Dog", dog),
      ("Owner", { type := some (.single "string") })] }
where
  owner : Schema := { ref := some "#/components/schemas/Owner" }
  owners : Schema := { type := some (.single "array"), items := some owner }
  dog : Schema := { properties := some [("kind", { ref := some "Kind" }), ("owners", owners)] }
  pinnedDog : Schema := Pin.applyTo ⟨"Dog", "kind", "dog"⟩ dog

theorem kennelDocument_resolves : ∃ generation,
    (ofDocument Naming.none kennelDocument).outcome = .ok generation ∧
      kennelDocument.pinnedDog.Refers "#/components/schemas/Owner" ∧
      kennelDocument.Provides "#/components/schemas/Owner" := by
  obtain ⟨generation, made⟩ := exists_ok
    (show (ofDocument Naming.none kennelDocument).outcome.isOk = true by decide +kernel)
  have refers : kennelDocument.pinnedDog.Refers "#/components/schemas/Owner" := by
    have owners : kennelDocument.owners ∈ kennelDocument.pinnedDog.readNodes :=
      List.mem_cons_of_mem _ (List.mem_singleton_self _)
    have owner : kennelDocument.owner ∈ kennelDocument.owners.readNodes := List.mem_singleton_self _
    exact .inside owners (.inside owner (.here rfl))
  obtain ⟨schemas, normalized, provides⟩ := ofDocument_resolves made
  obtain rfl := Except.ok.inj normalized
  have provided := provides ("Dog", kennelDocument.pinnedDog)
    (List.mem_cons_of_mem _ List.mem_cons_self)
  exact ⟨generation, made, refers, provided _ refers⟩

/-- An alias whose sibling keywords hold a reference to nothing. -/
def aliasDocument : Document where
  components := {
    schemas := [
      ("Name", { type := some (.single "string") }),
      ("Alias", {
        ref := some "#/components/schemas/Name"
        properties := some [("first", { ref := some "#/components/schemas/Missing" })] })] }

theorem aliasDocument_dangling :
    (ofDocument Naming.none aliasDocument).outcome.isOk = true ∧
      ∃ entry ∈ aliasDocument.components.schemas, ∃ path ∈ entry.2.references,
        ¬aliasDocument.Provides path := by
  refine ⟨by decide +kernel, _, List.mem_cons_of_mem _ (List.mem_singleton_self _),
    "#/components/schemas/Missing", ?_, ?_⟩
  · exact Schema.mem_references.mpr (.inr ⟨_, List.mem_singleton_self _,
      Schema.mem_references.mpr (.inl rfl)⟩)
  · rintro ⟨target, parsed, present⟩
    have missing : Target.parse "#/components/schemas/Missing" = .ok ⟨.schema, "Missing"⟩ := rfl
    obtain rfl := Except.ok.inj (parsed.symm.trans missing)
    revert present
    decide

end Generation
end TypedClient
