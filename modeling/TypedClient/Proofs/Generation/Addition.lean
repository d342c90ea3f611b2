import TypedClient.Proofs.Discriminator.Pins
import TypedClient.Proofs.Generation.Resolved
import TypedClient.Proofs.Operation.Extension
import TypedClient.Proofs.Registry.Addition

/-!
One more schema component. Where its key and its type name are new and it pins nothing, it adds its own
definition to the output and changes nothing else.
-/
namespace TypedClient

namespace Pin

variable {schemas more : List (String × Schema)}

theorem ofMapping_more (known : ∀ key, Entries.has key schemas = true → Entries.has key more = true)
    {property : String} {mapping : List (String × String)} {pins : List Pin}
    (made : ofMapping schemas property mapping = .ok pins) :
    ofMapping more property mapping = .ok pins := by
  induction mapping generalizing pins with
  | nil => exact made
  | cons entry rest ih =>
    obtain ⟨variant, target⟩ := entry
    obtain ⟨key, later, parsed, present, others, rfl⟩ := ofMapping_cons_ok made
    simp only [ofMapping, parsed, known key present, ih others, bind, Except.bind, if_true]
    rfl

theorem ofSchema_more (known : ∀ key, Entries.has key schemas = true → Entries.has key more = true)
    {node : Schema} {pins : List Pin} (made : ofSchema schemas node = .ok pins) :
    ofSchema more node = .ok pins := by
  unfold ofSchema at made ⊢
  split at made
  · split at made
    · rename_i composed
      rw [if_pos composed]
      exact ofMapping_more known made
    · rename_i alone
      rw [if_neg alone]
      exact made
  · exact made

theorem collect_more (known : ∀ key, Entries.has key schemas = true → Entries.has key more = true)
    {given : List (String × Schema)} {pins : List Pin} (made : collect schemas given = .ok pins)
    (key : String) {node : Schema} (undiscriminated : node.discriminator = none) :
    collect more (given ++ [(key, node)]) = .ok pins := by
  induction given generalizing pins with
  | nil =>
    obtain rfl := Except.ok.inj made
    simp [collect, ofSchema, undiscriminated, bind, Except.bind, pure, Except.pure]
  | cons entry rest ih =>
    obtain ⟨first, later, own, others, rfl⟩ := collect_cons_ok made
    simp only [List.cons_append, collect, ofSchema_more known own, ih others, bind, Except.bind]
    rfl

theorem foldl_apply_append {pins : List Pin} {key : String} {node : Schema}
    (apart : ∀ pin ∈ pins, key ≠ pin.key) :
    pins.foldl apply (schemas ++ [(key, node)]) = pins.foldl apply schemas ++ [(key, node)] := by
  induction pins generalizing schemas with
  | nil => rfl
  | cons pin pins ih =>
    obtain ⟨first, rest⟩ := List.forall_mem_cons.mp apart
    rw [List.foldl_cons, List.foldl_cons, apply, Entries.adjust_append first]
    exact ih rest

end Pin

theorem normalizeDiscriminators_append {schemas normalized : List (String × Schema)} {key : String}
    {node : Schema} (made : (normalizeDiscriminators schemas).outcome = .ok normalized)
    (fresh : Entries.has key schemas = false) (undiscriminated : node.discriminator = none) :
    (normalizeDiscriminators (schemas ++ [(key, node)])).outcome =
      .ok (normalized ++ [(key, node)]) := by
  obtain ⟨pins, collected, rfl⟩ := normalizeDiscriminators_pins made
  have known : ∀ held, Entries.has held schemas = true →
      Entries.has held (schemas ++ [(key, node)]) = true := fun held present => by
    rw [Entries.has_append, present, Bool.true_or]
  have apart : ∀ pin ∈ pins, key ≠ pin.key := by
    rintro pin member rfl
    have present := (Pin.collect_collects collected).known pin member
    exact Bool.false_ne_true (fresh.symm.trans present)
  unfold normalizeDiscriminators
  rw [Pin.collect_more known collected key undiscriminated]
  exact congrArg Except.ok (Pin.foldl_apply_append apart)

namespace Resolver

/-- The resolver with one more schema component at the end. -/
def withSchema (resolver : Resolver) (key : String) (node : Schema) : Resolver where
  components := { resolver.components with
    schemas := resolver.components.schemas ++ [(key, node)] }
  schemas := resolver.schemas ++ [(key, node)]

variable {resolver : Resolver}

theorem contains_withSchema {target : Target} (present : resolver.contains target = true)
    (key : String) (node : Schema) : (resolver.withSchema key node).contains target = true := by
  obtain ⟨root, held⟩ := target
  cases root with
  | schema =>
    have held : Entries.has held resolver.schemas = true := present
    simp only [contains, withSchema, Entries.has_append, held, Bool.true_or]
  | response | parameter | requestBody => exact present

theorem extends_withSchema (resolver : Resolver) (key : String) (node : Schema) :
    resolver.Extends (resolver.withSchema key node) where
  resolve path name resolved := by
    obtain ⟨target, parsed, present, rfl⟩ := parse_of_resolve resolved
    simp only [resolve, parsed, contains_withSchema present key node, bind, Except.bind, if_true]
  parameters := rfl
  responses := rfl
  requestBodies := rfl

theorem registers_withSchema {component : Component} {entry : Registration}
    (registers : resolver.Registers component entry) (key : String) (node : Schema) :
    (resolver.withSchema key node).Registers component entry :=
  ⟨component.definition_covered (resolver.extends_withSchema key node) _ registers.definition,
    registers.source⟩

/-- The new component is declared after the other schemas. -/
theorem declared_withSchema (resolver : Resolver) (key : String) (node : Schema) :
    ∃ front back, resolver.declared = front ++ back ∧
      (resolver.withSchema key node).declared = front ++ .schema key node :: back :=
  ⟨resolver.schemas.map fun entry => .schema entry.1 entry.2, _, List.append_assoc .., by
    simp [declared, withSchema]⟩

end Resolver

/-- The document with one more schema component at the end. -/
def Document.withSchema (document : Document) (key : String) (node : Schema) : Document :=
  { document with components := { document.components with
      schemas := document.components.schemas ++ [(key, node)] } }

namespace Generation

/-- The registration of a schema component with this type. -/
def schemaEntry (key : String) (node : Schema) (type : TypeExpr) : Registration :=
  ⟨⟨Root.schema.typeName key, type, DocComment.ofTexts node.description.toList⟩, .schema key⟩

section Addition

variable {naming : Naming} {document : Document} {key : String} {node : Schema} {type : TypeExpr}
  (fresh : Entries.has key document.components.schemas = false)
  (undiscriminated : node.discriminator = none)
  (typed : node.HasType (document.withSchema key node).resolver type)
include fresh undiscriminated typed

theorem Run.registers_new (run : Run naming document) :
    (run.resolver.withSchema key node).Registers (.schema key node) (schemaEntry key node type) := by
  have normalized : (normalizeDiscriminators
      (document.withSchema key node).components.schemas).outcome = .ok (run.schemas ++ [(key, node)]) :=
    normalizeDiscriminators_append run.normalized fresh undiscriminated
  have alike : node.Alike (run.resolver.withSchema key node) (document.withSchema key node).resolver :=
    Schema.alike_of_agree node fun path _ => Document.resolve_normalized normalized path
  have typed' : node.HasType (run.resolver.withSchema key node) type :=
    ⟨"", (alike "" "").trans (typed.everywhere "")⟩
  exact ⟨Component.schemaDefinition_of_type typed' key, rfl⟩

/-- The run on the larger document registers one definition more, and its operations are the same. -/
theorem Run.withSchema (run : Run naming document) :
    ∃ (larger : Run naming (document.withSchema key node)) (before after : List Registration),
      run.log = before ++ after ∧ larger.log = before ++ schemaEntry key node type :: after ∧
        larger.synthesized = run.synthesized := by
  have own := run.registers_new fresh undiscriminated typed
  obtain ⟨front, back, declared, declared'⟩ := run.resolver.declared_withSchema key node
  have components : List.Forall₂ run.resolver.Registers (front ++ back) run.registered :=
    declared ▸ run.components
  obtain ⟨before, after, registered, first, rest⟩ := InStep.split components
  have carried (component : Component) (entry : Registration)
      (registers : run.resolver.Registers component entry) :=
    Resolver.registers_withSchema registers key node
  have components' : List.Forall₂ (run.resolver.withSchema key node).Registers
      (run.resolver.withSchema key node).declared (before ++ schemaEntry key node type :: after) :=
    declared' ▸ List.rel_append (first.imp carried) (.cons own (rest.imp carried))
  refine ⟨⟨run.schemas ++ [(key, node)],
    normalizeDiscriminators_append run.normalized fresh undiscriminated, _, components',
    run.synthesized, run.operations.imp fun endpoint operation made => ?_⟩,
    before, after ++ run.synthesized.flatMap (·.auxiliary), ?_, ?_, rfl⟩
  · exact endpoint.synthesize_covered (run.resolver.extends_withSchema key node) naming _ made
  · rw [Run.log, registered, List.append_assoc]
  · rw [Run.log, List.append_assoc, List.cons_append]

end Addition

/-- A schema with a key and a type name of its own adds its definition, and all else stays. -/
theorem ofDocument_withSchema {naming : Naming} {document : Document} {generation : Generation}
    {key : String} {node : Schema} {type : TypeExpr}
    (made : (ofDocument naming document).outcome = .ok generation)
    (fresh : Entries.has key document.components.schemas = false)
    (undiscriminated : node.discriminator = none)
    (typed : node.HasType (document.withSchema key node).resolver type)
    (unnamed : Root.schema.typeName key ∉ generation.types.names) :
    ∃ front back, generation.types.entries = front ++ back ∧
      (ofDocument naming (document.withSchema key node)).outcome = .ok
        ⟨⟨front ++ schemaEntry key node type :: back, generation.types.collisions⟩,
          generation.components⟩ := by
  obtain ⟨run, rfl⟩ := ofDocument_run made
  obtain ⟨larger, before, after, log, log', synthesized⟩ := run.withSchema fresh undiscriminated typed
  have apart : ∀ other ∈ before ++ after,
      Root.schema.typeName key ≠ other.definition.name := fun other member same =>
    unnamed (run.mem_names.mpr ⟨other, log ▸ member, same.symm⟩)
  have adds : Registry.Adds (schemaEntry key node type) run.generation.types
      larger.generation.types := by
    rw [Run.generation, Run.generation, log, log']
    exact Registry.adds_of_fresh apart
  obtain ⟨⟨front, back, held, holds⟩, collisions⟩ := adds
  refine ⟨front, back, held, ?_⟩
  rw [larger.outcome, ← holds, ← collisions]
  simp only [Run.generation, synthesized]

/-- Trees of an orchard, listed by reference and with the fruit in place. -/
def orchardDocument : Document where
  paths := [("/trees", {
    operations := [("get", {
      operationId := some "listTrees"
      responses := [("200", .reference "#/components/responses/Trees")] })] })]
  components := {
    schemas := [("Fruit", { type := some (.single "string") })]
    responses := [("Trees", .inline { content := [("application/json", { schema := some {
      items := some { ref := some "#/components/schemas/Fruit" } } })] })] }

/-- A tree has a fruit and branches of its own kind. -/
def treeSchema : Schema where
  properties := some [
    ("fruit", { ref := some "#/components/schemas/Fruit" }),
    ("branches", { items := some { ref := some "#/components/schemas/tree" } })]
  required := ["fruit"]

def treeType : TypeExpr :=
  .object [⟨"fruit", .named "Fruit", false, none⟩, ⟨"branches", .array (.named "Tree"), true, none⟩]
    none

theorem orchardDocument_withSchema : ∃ generation front back,
    (ofDocument Naming.none orchardDocument).outcome = .ok generation ∧
      generation.types.entries = front ++ back ∧
      (ofDocument Naming.none (orchardDocument.withSchema "tree" treeSchema)).outcome = .ok
        ⟨⟨front ++ schemaEntry "tree" treeSchema treeType :: back, generation.types.collisions⟩,
          generation.components⟩ := by
  obtain ⟨generation, made⟩ := exists_ok
    (show (ofDocument Naming.none orchardDocument).outcome.isOk = true by decide +kernel)
  have names : (ofDocument Naming.none orchardDocument).outcome.toOption.map (·.types.names) =
      some ["Fruit", "TreesResponse"] := by decide +kernel
  rw [made] at names
  have held : generation.types.names = ["Fruit", "TreesResponse"] := Option.some.inj names
  have unnamed : Root.schema.typeName "tree" ∉ generation.types.names := by
    rw [held]
    decide +kernel
  obtain ⟨front, back, entries, larger⟩ :=
    ofDocument_withSchema made (by decide) rfl (⟨"", rfl⟩ : treeSchema.HasType _ treeType) unnamed
  exact ⟨generation, front, back, made, entries, larger⟩

end Generation
end TypedClient
