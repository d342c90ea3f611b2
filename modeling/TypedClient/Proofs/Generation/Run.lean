import TypedClient.Generation
import TypedClient.Proofs.Operation.Parts
import TypedClient.Proofs.Registry.Insertion

/-!
A successful run of synthesis, stage by stage: the normalized schemas, a registration for each
component, and an operation for each endpoint. The registry is the log of all their registrations.
-/
namespace TypedClient

structure Resolver.Registers (resolver : Resolver) (component : Component) (entry : Registration) :
    Prop where
  definition : (component.definition resolver).outcome = .ok entry.definition
  source : entry.source = component.source

theorem Resolver.register_log {resolver : Resolver} {components : List Component}
    {registry : Registry} (made : (resolver.register registry components).2.outcome = .ok ()) :
    ∃ log, List.Forall₂ resolver.Registers components log ∧
      (resolver.register registry components).1 = log.foldl Registry.insert registry := by
  induction components generalizing registry with
  | nil => exact ⟨[], .nil, rfl⟩
  | cons component components ih =>
    rw [register] at made ⊢
    cases first : (component.definition resolver).outcome with
    | error cause => simp [first] at made
    | ok definition =>
      simp only [first] at made ⊢
      obtain ⟨log, registers, final⟩ := ih made
      exact ⟨⟨definition, component.source⟩ :: log, .cons ⟨first, rfl⟩ registers, final⟩

theorem Resolver.register_of_log {resolver : Resolver} {components : List Component}
    {log : List Registration} (registers : List.Forall₂ resolver.Registers components log)
    (registry : Registry) :
    (resolver.register registry components).1 = log.foldl Registry.insert registry ∧
      (resolver.register registry components).2.outcome = .ok () := by
  induction registers generalizing registry with
  | nil => exact ⟨rfl, rfl⟩
  | @cons component entry _ _ first _ ih =>
    obtain ⟨definition, source⟩ := entry
    obtain ⟨made, rfl⟩ := first
    rw [register]
    simp only [made]
    exact ih _

/-- Registration fails only where a definition cannot be made. -/
theorem Resolver.register_ok {resolver : Resolver} {components : List Component}
    (each : ∀ component ∈ components, ∃ definition,
      (component.definition resolver).outcome = .ok definition) (registry : Registry) :
    (resolver.register registry components).2.outcome = .ok () := by
  induction components generalizing registry with
  | nil => rfl
  | cons component components ih =>
    obtain ⟨definition, made⟩ := each component List.mem_cons_self
    rw [register]
    simp only [made]
    exact ih (fun other member => each other (List.mem_cons_of_mem _ member)) _

namespace Generation

theorem operations_each {resolver : Resolver} {naming : Naming} {endpoints : List Endpoint}
    {synthesized : List SynthesizedOperation}
    (made : (operations resolver naming endpoints).outcome = .ok synthesized) :
    List.Forall₂ (fun endpoint operation =>
      (endpoint.synthesize resolver naming).outcome = .ok operation) endpoints synthesized := by
  induction endpoints generalizing synthesized with
  | nil =>
    obtain rfl := Traced.pure_ok made
    exact .nil
  | cons endpoint endpoints ih =>
    obtain ⟨operation, first, made⟩ := Traced.bind_ok made
    obtain ⟨later, others, made⟩ := Traced.bind_ok made
    obtain rfl := Traced.pure_ok made
    exact .cons first (ih others)

theorem operations_of_each {resolver : Resolver} {naming : Naming} {endpoints : List Endpoint}
    {synthesized : List SynthesizedOperation}
    (each : List.Forall₂ (fun endpoint operation =>
      (endpoint.synthesize resolver naming).outcome = .ok operation) endpoints synthesized) :
    (operations resolver naming endpoints).outcome = .ok synthesized := by
  induction each with
  | nil => rfl
  | cons first _ ih => simp only [operations, Traced.outcome_bind, first, ih, Except.bind,
      Traced.outcome_pure]

/-- What the stages of a successful run hand on. -/
structure Run (naming : Naming) (document : Document) where
  schemas : List (String × Schema)
  normalized : (normalizeDiscriminators document.components.schemas).outcome = .ok schemas
  registered : List Registration
  components : List.Forall₂ (Resolver.Registers ⟨document.components, schemas⟩)
    (Resolver.declared ⟨document.components, schemas⟩) registered
  synthesized : List SynthesizedOperation
  operations : List.Forall₂ (fun endpoint operation =>
    (endpoint.synthesize ⟨document.components, schemas⟩ naming).outcome = .ok operation)
    document.endpoints synthesized

namespace Run

variable {naming : Naming} {document : Document} (run : Run naming document)

def resolver : Resolver :=
  ⟨document.components, run.schemas⟩

def log : List Registration :=
  run.registered ++ run.synthesized.flatMap (·.auxiliary)

def generation : Generation where
  types := run.log.foldl Registry.insert {}
  components := run.synthesized.map (·.descriptor)

theorem mem_names {name : String} :
    name ∈ run.generation.types.names ↔ ∃ entry ∈ run.log, entry.definition.name = name := by
  rw [generation, Registry.mem_names_foldl]
  simp [Registry.names]

theorem mem_log_of_mem_entries {entry : Registration} (held : entry ∈ run.generation.types.entries) :
    entry ∈ run.log := by
  rcases Registry.mem_entries_foldl held with member | none
  · exact member
  · cases none

theorem described_of_mem {operation : SynthesizedOperation} (member : operation ∈ run.synthesized) :
    ∃ endpoint ∈ document.endpoints, ∃ declared parts,
      endpoint.Described run.resolver (endpoint.name naming) declared parts ∧
        operation = endpoint.assemble (endpoint.name naming) parts := by
  obtain ⟨endpoint, present, made⟩ := InStep.left_of_right run.operations member
  exact ⟨endpoint, present, Endpoint.synthesize_described made⟩

/-- A registration comes from a component or from the described parts of an operation. -/
theorem origin_of_mem_log {entry : Registration} (member : entry ∈ run.log) :
    (∃ component ∈ run.resolver.declared, run.resolver.Registers component entry) ∨
      ∃ endpoint ∈ document.endpoints, ∃ declared parts,
        endpoint.Described run.resolver (endpoint.name naming) declared parts ∧
          entry ∈ (endpoint.assemble (endpoint.name naming) parts).auxiliary := by
  rcases List.mem_append.mp member with registered | auxiliary
  · exact .inl (InStep.left_of_right run.components registered)
  · obtain ⟨operation, present, auxiliary⟩ := List.mem_flatMap.mp auxiliary
    obtain ⟨endpoint, listed, declared, parts, described, rfl⟩ := run.described_of_mem present
    exact .inr ⟨endpoint, listed, declared, parts, described, auxiliary⟩

theorem outcome : (ofDocument naming document).outcome = .ok run.generation := by
  have registered := Resolver.register_of_log run.components {}
  have operations := operations_of_each run.operations
  simp only [ofDocument, Resolver.registerComponents, Traced.outcome_bind, run.normalized,
    registered, operations, Except.bind, Traced.outcome_report, Traced.outcome_pure, generation, log,
    insertAll, List.foldl_append]

end Run

theorem ofDocument_run {naming : Naming} {document : Document} {generation : Generation}
    (made : (ofDocument naming document).outcome = .ok generation) :
    ∃ run : Run naming document, run.generation = generation := by
  obtain ⟨schemas, normalized, made⟩ := Traced.bind_ok made
  obtain ⟨⟨⟩, registering, made⟩ := Traced.bind_ok made
  obtain ⟨⟨⟩, registering, -⟩ := Traced.bind_ok registering
  obtain ⟨⟨⟩, -, made⟩ := Traced.bind_ok made
  obtain ⟨synthesized, operations, made⟩ := Traced.bind_ok made
  obtain ⟨⟨⟩, -, made⟩ := Traced.bind_ok made
  obtain ⟨⟨⟩, -, made⟩ := Traced.bind_ok made
  obtain rfl := Traced.pure_ok made
  obtain ⟨log, components, final⟩ := Resolver.register_log registering
  refine ⟨⟨schemas, normalized, log, components, synthesized, operations_each operations⟩, ?_⟩
  simp only [Run.generation, Run.log, List.foldl_append, ← final, insertAll]

/-- What descriptors have from their endpoints alone, in order. -/
theorem map_components_eq {α : Type} {naming : Naming} {document : Document} {generation : Generation}
    (made : (ofDocument naming document).outcome = .ok generation) {part : Descriptor → α}
    {source : Endpoint → α} (same : ∀ endpoint parts,
      part (endpoint.assemble (endpoint.name naming) parts).descriptor = source endpoint) :
    generation.components.map part = document.endpoints.map source := by
  obtain ⟨run, rfl⟩ := ofDocument_run made
  rw [Run.generation, List.map_map]
  refine (InStep.map_eq run.operations fun endpoint operation synthesized => ?_).symm
  obtain ⟨declared, parts, -, rfl⟩ := Endpoint.synthesize_described synthesized
  exact (same endpoint parts).symm

end Generation
end TypedClient
