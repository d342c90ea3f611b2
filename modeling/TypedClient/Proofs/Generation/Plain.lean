import TypedClient.Generation
import TypedClient.Proofs.Operation.Plain
import TypedClient.Proofs.Registry.Insertion

/-!
Texts never change types. Synthesis of a document without its texts gives what synthesis of the document
gives, without the texts; two documents that differ in texts only are therefore told apart by texts only.
-/
namespace TypedClient

/-! ### Results that differ in texts only -/

structure Registration.Agrees (entry other : Registration) : Prop where
  name : entry.definition.name = other.definition.name
  source : entry.source = other.source
  type : entry.definition.type.same other.definition.type = true

structure PathParam.Agrees (param other : PathParam) : Prop where
  name : param.name = other.name
  identifier : param.identifier = other.identifier
  required : param.required = other.required
  type : param.type.same other.type = true

/-- Equal but for the documentation and the descriptions of header parameters. -/
structure Descriptor.Agrees (descriptor other : Descriptor) : Prop where
  name : descriptor.name = other.name
  verb : descriptor.verb = other.verb
  path : descriptor.path = other.path
  route : descriptor.route = other.route
  pathParams : List.Forall₂ PathParam.Agrees descriptor.pathParams other.pathParams
  trailingId : List.Forall₂ PathParam.Agrees descriptor.trailingId.toList other.trailingId.toList
  queryParamsType : descriptor.queryParamsType = other.queryParamsType
  queryRequired : descriptor.queryRequired = other.queryRequired
  headerParams : descriptor.headerParams.map Parameter.plain = other.headerParams.map Parameter.plain
  bodyType : descriptor.bodyType.same other.bodyType = true
  bodyRequired : descriptor.bodyRequired = other.bodyRequired
  responseType : descriptor.responseType.same other.responseType = true
  errorType : descriptor.errorType.same other.errorType = true
  tags : descriptor.tags = other.tags
  deprecated : descriptor.deprecated = other.deprecated

/-- The same definitions in the same order with the same collisions, and the same operations. -/
structure Generation.Agrees (generation other : Generation) : Prop where
  types : List.Forall₂ Registration.Agrees generation.types.entries other.types.entries
  collisions : generation.types.collisions = other.types.collisions
  components : List.Forall₂ Descriptor.Agrees generation.components other.components

theorem Registration.Agrees.of_plain {entry other : Registration} (equal : entry.plain = other.plain) :
    entry.Agrees other where
  name := congrArg (·.definition.name) equal
  source := congrArg (·.source) equal
  type := TypeExpr.same_iff_plain.mpr (congrArg (·.definition.type) equal)

theorem PathParam.Agrees.of_plain {param other : PathParam} (equal : param.plain = other.plain) :
    param.Agrees other where
  name := congrArg (·.name) equal
  identifier := congrArg (·.identifier) equal
  required := congrArg (·.required) equal
  type := TypeExpr.same_iff_plain.mpr (congrArg (·.type) equal)

theorem PathParam.Agrees.all_of_plain {params others : List PathParam}
    (equal : params.map PathParam.plain = others.map .plain) :
    List.Forall₂ PathParam.Agrees params others :=
  (InStep.of_map_eq equal).imp fun _ _ => .of_plain

theorem Descriptor.Agrees.of_plain {descriptor other : Descriptor}
    (equal : descriptor.plain = other.plain) : descriptor.Agrees other where
  name := congrArg (·.name) equal
  verb := congrArg (·.verb) equal
  path := congrArg (·.path) equal
  route := congrArg (·.route) equal
  pathParams := PathParam.Agrees.all_of_plain (congrArg (·.pathParams) equal)
  trailingId :=
    PathParam.Agrees.all_of_plain (by
      rw [← Option.toList_map, ← Option.toList_map]
      exact congrArg (·.trailingId.toList) equal)
  queryParamsType := congrArg (·.queryParamsType) equal
  queryRequired := congrArg (·.queryRequired) equal
  headerParams := congrArg (·.headerParams) equal
  bodyType := TypeExpr.same_iff_plain.mpr (congrArg (·.bodyType) equal)
  bodyRequired := congrArg (·.bodyRequired) equal
  responseType := TypeExpr.same_iff_plain.mpr (congrArg (·.responseType) equal)
  errorType := TypeExpr.same_iff_plain.mpr (congrArg (·.errorType) equal)
  tags := congrArg (·.tags) equal
  deprecated := congrArg (·.deprecated) equal

/-! ### Registries -/

namespace Registry

def plain (registry : Registry) : Registry :=
  { registry with entries := registry.entries.map .plain }

variable (registry : Registry) (entry : Registration)

theorem size_plain : registry.plain.size = registry.size :=
  List.length_map _

theorem find?_plain (name : String) :
    registry.plain.find? name = (registry.find? name).map .plain := by
  rw [find?, plain, List.find?_map]
  rfl

theorem collision?_plain (name : String) (source : Source) :
    registry.plain.collision? name source = registry.collision? name source := by
  have held : registry.plain.source? name = registry.source? name := by
    rw [source?, find?_plain, Option.map_map]
    rfl
  rw [collision?, held, collision?]

theorem reports_plain : registry.plain.reports entry.plain = registry.reports entry :=
  congrArg (fun clash : Option Collision => clash.toList.map Event.collision)
    (registry.collision?_plain _ _)

theorem replace_plain (name : String) :
    (registry.plain.entries.map fun held =>
        if held.definition.name == name then entry.plain else held) =
      (registry.entries.map fun held =>
        if held.definition.name == name then entry else held).map .plain := by
  rw [plain, List.map_map, List.map_map]
  refine List.map_congr_left fun held _ => ?_
  simp only [Function.comp_apply, apply_ite Registration.plain]
  rfl

theorem insert_plain : registry.plain.insert entry.plain = (registry.insert entry).plain := by
  have name : entry.plain.definition.name = entry.definition.name := rfl
  have source : entry.plain.source = entry.source := rfl
  have appended : registry.plain.entries ++ [entry.plain] =
      (registry.entries ++ [entry]).map .plain := by
    rw [List.map_append]
    rfl
  rw [insert, insert, name, source, collision?_plain, find?_plain, Option.isSome_map, replace_plain,
    appended, ← apply_ite (List.map Registration.plain)]
  rfl

end Registry

namespace Resolver

variable (resolver : Resolver)

theorem declared_plain : resolver.plain.declared = resolver.declared.map .plain := by
  simp only [declared, plain, Components.plain, Entries.mapValues, List.map_append, List.map_map]
  rfl

theorem register_plain (registry : Registry) (components : List Component) :
    resolver.plain.register registry.plain (components.map .plain) =
      ((resolver.register registry components).1.plain,
        (resolver.register registry components).2) := by
  induction components generalizing registry with
  | nil => rfl
  | cons component components ih =>
    simp only [List.map_cons, register, Component.definition_plain, Traced.map_eq,
      Component.source_plain]
    cases (component.definition resolver).outcome with
    | error cause => rfl
    | ok definition =>
      have later := ih (registry.insert ⟨definition, component.source⟩)
      have entry : (⟨definition.plain, component.source⟩ : Registration) =
        Registration.plain ⟨definition, component.source⟩ := rfl
      simp only [Except.map, entry, Registry.insert_plain, later, Registry.reports_plain]

theorem registerComponents_plain (registry : Registry) :
    resolver.plain.registerComponents registry.plain =
      ((resolver.registerComponents registry).1.plain, (resolver.registerComponents registry).2) := by
  simp only [registerComponents, declared_plain, register_plain, Registry.size_plain]

end Resolver

namespace Document

variable (document : Document)

theorem endpoints_plain : document.plain.endpoints = document.endpoints.map .plain := by
  simp only [endpoints, plain, PathItem.plain, Entries.mapValues, List.flatMap_map, List.map_flatMap,
    List.map_filterMap, List.filterMap_map, Function.comp_def, Option.map_map]
  rfl

theorem skippedMethods_plain : document.plain.skippedMethods = document.skippedMethods := by
  simp only [skippedMethods, plain, PathItem.plain, Entries.mapValues, List.flatMap_map,
    List.filterMap_map, Function.comp_def]

end Document

namespace Generation

def plain (generation : Generation) : Generation where
  types := generation.types.plain
  components := generation.components.map .plain

theorem operations_plain (resolver : Resolver) (naming : Naming) (endpoints : List Endpoint) :
    operations resolver.plain naming (endpoints.map .plain) =
      List.map SynthesizedOperation.plain <$> operations resolver naming endpoints := by
  induction endpoints with
  | nil => rfl
  | cons endpoint endpoints ih =>
    simp only [List.map_cons, operations, Endpoint.synthesize_plain, ih, bind_map_left, map_bind,
      map_pure]

theorem insertAll_plain (registry : Registry) (entries : List Registration) :
    insertAll registry.plain (entries.map .plain) = (insertAll registry entries).plain := by
  induction entries generalizing registry with
  | nil => rfl
  | cons entry entries ih =>
    rw [List.map_cons, insertAll, List.foldl_cons, Registry.insert_plain]
    exact ih _

theorem reportAll_plain (registry : Registry) (entries : List Registration) :
    reportAll registry.plain (entries.map .plain) = reportAll registry entries := by
  induction entries generalizing registry with
  | nil => rfl
  | cons entry entries ih =>
    rw [List.map_cons, reportAll, reportAll, Registry.reports_plain, Registry.insert_plain, ih]

theorem ofDocument_plain (naming : Naming) (document : Document) :
    ofDocument naming document.plain = plain <$> ofDocument naming document := by
  have schemas : document.plain.components.schemas =
      Entries.mapValues .plain document.components.schemas := rfl
  have resolver (schemas : List (String × Schema)) :
      (⟨document.plain.components, Entries.mapValues .plain schemas⟩ : Resolver) =
        Resolver.plain ⟨document.components, schemas⟩ := rfl
  have registered (resolver : Resolver) :
      resolver.plain.registerComponents {} =
        ((resolver.registerComponents {}).1.plain, (resolver.registerComponents {}).2) :=
    resolver.registerComponents_plain {}
  have auxiliary (synthesized : List SynthesizedOperation) :
      (synthesized.map SynthesizedOperation.plain).flatMap (·.auxiliary) =
        (synthesized.flatMap (·.auxiliary)).map .plain := by
    rw [List.flatMap_map, List.map_flatMap]
    rfl
  have collisions (registry : Registry) : registry.plain.collisions = registry.collisions := rfl
  have descriptors (synthesized : List SynthesizedOperation) :
      (synthesized.map SynthesizedOperation.plain).map (·.descriptor) =
        (synthesized.map (·.descriptor)).map .plain := by
    rw [List.map_map, List.map_map]
    rfl
  simp only [ofDocument, schemas, normalizeDiscriminators_plain, bind_map_left, resolver, registered,
    Document.skippedMethods_plain, Document.endpoints_plain, operations_plain, auxiliary,
    reportAll_plain, insertAll_plain, Registry.size_plain, collisions, List.length_map, descriptors,
    map_bind, map_pure, plain]

theorem Agrees.of_plain {generation other : Generation} (equal : generation.plain = other.plain) :
    generation.Agrees other where
  types := (InStep.of_map_eq (congrArg (·.types.entries) equal)).imp fun _ _ => .of_plain
  collisions := congrArg (·.types.collisions) equal
  components := (InStep.of_map_eq (congrArg (·.components) equal)).imp fun _ _ => .of_plain

/-- No text changes what a run reports. -/
theorem events_of_plain {document document' : Document} (texts : document.plain = document'.plain)
    (naming : Naming) : (ofDocument naming document).events = (ofDocument naming document').events := by
  have events (document : Document) :
      (ofDocument naming document.plain).events = (ofDocument naming document).events := by
    rw [ofDocument_plain, Traced.map_eq]
  rw [← events, texts, events]

/-- A quote as the answer to a search, with the texts that are given. -/
def quoteResponse (description text author : Option String) : Referable Response :=
  .inline {
    description
    content := [("application/json", { schema := some {
      description
      properties := some [
        ("text", { type := some (.single "string"), description := text }),
        ("author", { ref := some "#/components/schemas/Author", description := author })] } })] }

/-- Two success responses that differ in their texts at most, beside a tagged union. -/
def quotesDocument (first second : Option String) : Document where
  paths := [("/quotes/{id}", {
    parameters := [.inline
      { name := "id", location := .path, required := true, description := first
        schema := some { type := some (.single "string"), description := second } }]
    operations := [("delete", {
      operationId := some "findQuote"
      summary := first
      description := second
      parameters := [.inline { name := "X-Trace", location := .header, description := second }]
      responses := [("200", quoteResponse first second none), ("203", quoteResponse none none first)]
      deprecated := true })] })]
  components := { schemas := [
    ("Author", {
      description := second
      oneOf := some [{ ref := some "#/components/schemas/Person", description := first }]
      discriminator := some ⟨"kind", [("person", "Person")]⟩ }),
    ("Person", {
      properties := some [("kind", { type := some (.single "string"), description := first })] })] }

def quotes : Document :=
  quotesDocument (some "A quote.") (some "Found by its number.")

def bareQuotes : Document :=
  quotesDocument none (some "See the list.")

end Generation
end TypedClient
