import TypedClient.Generation
import TypedClient.Proofs.Operation.Relevant

/-!
What synthesis does not look at has no influence on its result: a document generates what is generated
from it without redirects, cookies in place, skipped methods and second media types.
-/
namespace TypedClient

namespace Resolver

variable (resolver : Resolver)

theorem declared_relevant : resolver.relevant.declared = resolver.declared.map .relevant := by
  simp only [declared, relevant, Components.relevant, Entries.mapValues, List.map_append, List.map_map,
    Function.comp_def, Component.relevant]

theorem register_relevant (components : List Component) (registry : Registry) :
    (resolver.relevant.register registry (components.map .relevant)).1 =
        (resolver.register registry components).1 ∧
      (resolver.relevant.register registry (components.map .relevant)).2.outcome =
        (resolver.register registry components).2.outcome := by
  induction components generalizing registry with
  | nil => exact ⟨rfl, rfl⟩
  | cons component rest ih =>
    simp only [List.map_cons, register, Component.definition_relevant, Component.source_relevant]
    split
    · exact ⟨rfl, rfl⟩
    · exact ih _

theorem registerComponents_relevant (registry : Registry) :
    (resolver.relevant.registerComponents registry).1 = (resolver.registerComponents registry).1 ∧
      (resolver.relevant.registerComponents registry).2.outcome =
        (resolver.registerComponents registry).2.outcome := by
  obtain ⟨final, run⟩ := resolver.register_relevant resolver.declared registry
  simp only [registerComponents, declared_relevant, Traced.outcome_bind, final, run]
  trivial

end Resolver

theorem PathItem.verb_of_skipped {key : String} (skipped : skippedKeys.contains key = true) :
    Verb.ofKey? key = none := by
  simp only [skippedKeys, List.contains_iff_mem, List.mem_cons, List.not_mem_nil, or_false] at skipped
  rcases skipped with rfl | rfl | rfl <;> rfl

/-- Skipped methods have no endpoints in the first place. -/
theorem Document.endpoints_relevant (document : Document) :
    document.relevant.endpoints = document.endpoints.map .relevant := by
  simp only [endpoints, relevant, Entries.mapValues, List.flatMap_map, List.map_flatMap,
    List.map_filterMap, PathItem.relevant, PathItem.relevantOperations, List.filterMap_map]
  congr 1
  funext entry
  obtain ⟨route, item⟩ := entry
  rw [List.filterMap_filter]
  congr 1
  funext entry
  obtain ⟨key, operation⟩ := entry
  cases skipped : PathItem.skippedKeys.contains key with
  | true => simp [PathItem.verb_of_skipped skipped]
  | false =>
    simp only [Bool.not_false, if_true, Function.comp_apply, Option.map_map]
    rfl

namespace Generation

theorem operations_relevant (resolver : Resolver) (naming : Naming) (endpoints : List Endpoint) :
    (operations resolver.relevant naming (endpoints.map .relevant)).outcome =
      (operations resolver naming endpoints).outcome := by
  induction endpoints with
  | nil => rfl
  | cons endpoint rest ih =>
    simp only [List.map_cons, operations, Traced.outcome_bind, Endpoint.synthesize_relevant, ih]

/-- A redirect may refer to nothing. -/
example : (ofDocument Naming.none { paths := [("/rooms", { operations := [("get",
    { responses := [("302", .reference "#/components/responses/Moved")] })] })] }).outcome.isOk = true := by
  decide +kernel

end Generation
end TypedClient
