import TypedClient.Discriminator
import TypedClient.Operation.Synthesis

/-! Everything synthesized from one document. -/
namespace TypedClient

structure Generation where
  types : Registry := {}
  components : List Descriptor := []

namespace Document

/-- The operations of supported methods, in path and declaration order. -/
def endpoints (document : Document) : List Endpoint :=
  document.paths.flatMap fun (route, item) =>
    item.operations.filterMap fun (key, operation) =>
      (Verb.ofKey? key).map fun verb => ⟨route, verb, operation, item.parameters⟩

def skippedMethods (document : Document) : List Event :=
  document.paths.flatMap fun (route, item) =>
    item.operations.filterMap fun (key, _) =>
      if (Verb.ofKey? key).isSome then none else some (.methodSkipped route key)

end Document

namespace Generation

def operations (resolver : Resolver) (naming : Naming) :
    List Endpoint → Synthesis (List SynthesizedOperation)
  | [] => pure []
  | endpoint :: rest => do
    let operation ← endpoint.synthesize resolver naming
    let later ← operations resolver naming rest
    pure (operation :: later)

def insertAll (registry : Registry) (entries : List Registration) : Registry :=
  entries.foldl Registry.insert registry

def reportAll (registry : Registry) : List Registration → List Event
  | [] => []
  | entry :: rest => registry.reports entry ++ reportAll (registry.insert entry) rest

/-- Components are registered first, and the definitions of operations after all operations. -/
def ofDocument (naming : Naming) (document : Document) : Synthesis Generation := do
  let schemas ← normalizeDiscriminators document.components.schemas
  let resolver : Resolver := ⟨document.components, schemas⟩
  let (registry, registered) := resolver.registerComponents {}
  registered
  (⟨document.skippedMethods, .ok ()⟩ : Synthesis Unit)
  let synthesized ← operations resolver naming document.endpoints
  let entries := synthesized.flatMap (·.auxiliary)
  (⟨reportAll registry entries, .ok ()⟩ : Synthesis Unit)
  let types := insertAll registry entries
  Traced.report (.documentSynthesized types.size synthesized.length types.collisions.length)
  pure ⟨types, synthesized.map (·.descriptor)⟩

end Generation
end TypedClient
