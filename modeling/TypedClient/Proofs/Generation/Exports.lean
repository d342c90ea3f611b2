import TypedClient.Proofs.Generation.Run
import TypedClient.Proofs.Render.Bindings

/-!
The names that a whole module declares. Those of operations are distinct if no two operations clash and
no function has the name of a helper; keys and hooks never have one.
-/
namespace TypedClient

namespace Flavor

/-- The names that do not come from an operation. -/
def fixedNames (flavor : Flavor) (mode : RenderMode) : List String :=
  (Fetch.helpers ++ flavor.sharedBindings mode).map (·.name)

theorem nodup_fixedNames (flavor : Flavor) (mode : RenderMode) : (flavor.fixedNames mode).Nodup := by
  cases flavor <;> cases mode <;> decide

theorem fixedNames_plain {flavor : Flavor} {mode : RenderMode} {name : String}
    (fixed : name ∈ flavor.fixedNames mode) :
    ¬"Key".toList <:+ name.toList ∧ ¬"use".toList <+: name.toList := by
  have plain : ∀ name ∈ flavor.fixedNames mode,
      ¬"Key".toList <:+ name.toList ∧ ¬"use".toList <+: name.toList := by
    cases flavor <;> cases mode <;> decide
  exact plain name fixed

end Flavor

namespace Label

variable (label : Label) (flavor : Flavor) (mode : RenderMode)

theorem key_not_fixed : label.key ∉ flavor.fixedNames mode := by
  intro fixed
  have ends : "Key".toList <:+ label.key.toList :=
    ⟨label.function.toList, (String.toList_append ..).symm⟩
  exact (Flavor.fixedNames_plain fixed).1 ends

theorem hook_not_fixed : label.hook ∉ flavor.fixedNames mode := by
  intro fixed
  have starts : "use".toList <+: label.hook.toList :=
    ⟨(Identifier.capitalized label.function).toList, (String.toList_append ..).symm⟩
  exact (Flavor.fixedNames_plain fixed).2 starts

theorem function_mem_names : label.function ∈ label.names flavor := by
  cases flavor <;> exact List.mem_cons_self

theorem disjoint_fixedNames_iff (labels : List Label) :
    (flavor.fixedNames mode).Disjoint (labels.flatMap (·.names flavor)) ↔
      ∀ label ∈ labels, label.function ∉ flavor.fixedNames mode := by
  constructor
  · intro apart label member fixed
    exact apart fixed (List.mem_flatMap.mpr ⟨label, member, label.function_mem_names flavor⟩)
  · intro apart name fixed member
    obtain ⟨label, listed, own⟩ := List.mem_flatMap.mp member
    -- Only the name of a function can be fixed: the others are told by what they end or start with.
    cases flavor with
    | fetch =>
      obtain rfl := List.mem_singleton.mp own
      exact apart label listed fixed
    | reactQuery =>
      rcases mem_names.mp own with rfl | ⟨-, rfl⟩ | rfl
      · exact apart label listed fixed
      · exact label.key_not_fixed _ mode fixed
      · exact label.hook_not_fixed _ mode fixed

end Label

namespace Flavor

variable (flavor : Flavor) (mode : RenderMode)

theorem names_operationBindings (descriptor : Descriptor) :
    (flavor.operationBindings descriptor).map (·.name) = descriptor.label.names flavor := by
  cases flavor with
  | fetch => rfl
  | reactQuery =>
    rw [operationBindings, Label.names, List.map_cons, List.map_append, apply_ite (List.map _)]
    rfl

theorem names_bindings_perm {components : List Descriptor} (filled : components.isEmpty = false) :
    ((flavor.bindings mode components).map (·.name)).Perm
      (flavor.fixedNames mode ++ (components.map Descriptor.label).flatMap (·.names flavor)) := by
  have operations : (components.flatMap flavor.operationBindings).map (·.name) =
      (components.map Descriptor.label).flatMap (·.names flavor) := by
    rw [List.map_flatMap, List.flatMap_map]
    exact List.flatMap_congr fun descriptor _ => flavor.names_operationBindings descriptor
  rw [bindings, filled, if_neg Bool.false_ne_true, fixedNames, List.map_append, List.map_append,
    List.map_append, operations, List.append_assoc, List.append_assoc]
  exact List.perm_append_comm.append_left _

theorem nodup_names_bindings_iff (components : List Descriptor) :
    ((flavor.bindings mode components).map (·.name)).Nodup ↔
      (components.map Descriptor.label).Pairwise (fun first later => ¬Label.Clash flavor first later) ∧
        ∀ label ∈ components.map Descriptor.label, label.function ∉ flavor.fixedNames mode := by
  cases empty : components.isEmpty with
  | true =>
    obtain rfl := List.isEmpty_iff.mp empty
    have helpers : (Fetch.helpers.map (·.name)).Nodup := by decide
    simpa [bindings] using helpers
  | false =>
    rw [(flavor.names_bindings_perm mode empty).nodup_iff, List.nodup_append',
      and_iff_right (flavor.nodup_fixedNames mode), Label.nodup_names_iff,
      Label.disjoint_fixedNames_iff]

end Flavor

namespace Generation

theorem labels_eq {naming : Naming} {document : Document} {generation : Generation}
    (made : (ofDocument naming document).outcome = .ok generation) :
    generation.components.map Descriptor.label = document.endpoints.map (Endpoint.label naming) :=
  map_components_eq made fun _ _ => rfl

/-- The text of a module declares the names of its helpers and operations, and they are distinct exactly
if no two operations clash and no function has the name of a helper. -/
theorem exports_distinct_iff {naming : Naming} {document : Document} {generation : Generation}
    (flavor : Flavor) (mode : RenderMode)
    (made : (ofDocument naming document).outcome = .ok generation) :
    Declares (generation.render flavor.renderer mode) (flavor.bindings mode generation.components) ∧
      (((flavor.bindings mode generation.components).map (·.name)).Nodup ↔
        (document.endpoints.map (Endpoint.label naming)).Pairwise
          (fun first later => ¬Label.Clash flavor first later) ∧
        ∀ endpoint ∈ document.endpoints,
          (endpoint.label naming).function ∉ flavor.fixedNames mode) := by
  refine ⟨generation.declares_render flavor mode, ?_⟩
  rw [flavor.nodup_names_bindings_iff mode, labels_eq made, List.forall_mem_map]

/-- Two paths with operations that are named by their paths, apart from one. -/
def petShop : Document where
  paths := [
    ("/pets", { operations := [("get", { operationId := some "listPets" }), ("post", {})] }),
    ("/pets/{id}", {
      parameters := [.inline { name := "id", location := .path, required := true }]
      operations := [("get", {}), ("delete", {})] })]

theorem petShop_distinct : ∃ generation,
    (ofDocument Naming.none petShop).outcome = .ok generation ∧
      ((Flavor.reactQuery.bindings .aggregate generation.components).map (·.name)).Nodup := by
  obtain ⟨generation, made⟩ := exists_ok
    (show (ofDocument Naming.none petShop).outcome.isOk = true by decide +kernel)
  obtain ⟨-, distinct⟩ := exports_distinct_iff .reactQuery .aggregate made
  exact ⟨generation, made, distinct.mpr ⟨by decide +kernel, by decide +kernel⟩⟩

/-- A placeholder and a segment that are spelled alike in the name of an operation. -/
def petsById : Document where
  paths := [
    ("/pets/{id}", {
      parameters := [.inline { name := "id", location := .path, required := true }]
      operations := [("get", {})] }),
    ("/pets/by-id", { operations := [("get", {})] })]

theorem petsById_repeats : (petsById.endpoints.filterMap (·.operation.operationId)).Nodup ∧
    ∃ generation, (ofDocument Naming.none petsById).outcome = .ok generation ∧
      ∀ (flavor : Flavor) (mode : RenderMode),
        ¬((flavor.bindings mode generation.components).map (·.name)).Nodup := by
  obtain ⟨generation, made⟩ := exists_ok
    (show (ofDocument Naming.none petsById).outcome.isOk = true by decide +kernel)
  refine ⟨by decide +kernel, generation, made, fun flavor mode => ?_⟩
  have shown : (ofDocument Naming.none petsById).outcome.toOption.map (fun generation =>
      decide ((flavor.bindings mode generation.components).map (·.name)).Nodup) = some false := by
    cases flavor <;> cases mode <;> decide +kernel
  rw [made] at shown
  exact of_decide_eq_false (Option.some.inj shown)

end Generation
end TypedClient
