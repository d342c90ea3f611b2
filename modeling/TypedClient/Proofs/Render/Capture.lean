import TypedClient.Proofs.Identifier.Spelling
import TypedClient.Proofs.Render.Arguments
import TypedClient.Proofs.Render.Url

/-!
Names that path parameters bring into a generated function. They are kept apart from the fixed arguments,
but neither from each other nor from what the bodies refer to: the parameters of a function are distinct
exactly if no two placeholders stand for alike names, and a name of the body is captured exactly if a
placeholder stands for it or, in a query hook, if a fixed argument has the name of the function.
-/
namespace TypedClient
open Fetch QueryHooks

namespace Endpoint

/-- The name behind an identifier: of the parameter that the placeholder matches, or its own. -/
def standsFor (declared : List Parameter) (placeholder : String) : String :=
  ((matching placeholder declared).map (·.name)).getD placeholder

def pathNames (endpoint : Endpoint) (declared : List Parameter) : List String :=
  (placeholders (Route.parse endpoint.route)).map
    (standsFor (declared.filter (·.location == .path)))

section

variable {resolver : Resolver} {name : String} {endpoint : Endpoint} {declared : List Parameter}
  {parts : OperationParts}

theorem PlaceholderTyped.identifier {placeholder : String} {param : PathParam}
    (typed : PlaceholderTyped resolver declared placeholder param) :
    Identifier.ofName (standsFor declared placeholder) = param.identifier := by
  unfold standsFor
  cases typed with
  | matched found => rw [found, Option.map_some, Option.getD_some]
  | unmatched absent => rw [absent, Option.map_none, Option.getD_none]

theorem pathIdentifiers_assemble (described : endpoint.Described resolver name declared parts) :
    pathIdentifiers (endpoint.assemble name parts).descriptor =
      (endpoint.pathNames declared).map Identifier.ofName := by
  rw [pathIdentifiers, allPathParams_assemble described, pathNames, List.map_map]
  exact (InStep.map_eq described.path fun _ _ typed => typed.identifier).symm

theorem mem_pathIdentifiers_assemble (described : endpoint.Described resolver name declared parts)
    {identifier : String} :
    identifier ∈ pathIdentifiers (endpoint.assemble name parts).descriptor ↔
      ∃ source ∈ endpoint.pathNames declared, Identifier.ofName source = identifier := by
  rw [pathIdentifiers_assemble described, List.mem_map]

end
end Endpoint

/-! ### Distinct parameters -/

namespace Fetch

variable {descriptor : Descriptor}

theorem nodup_pathIdentifiers {last : List Argument}
    (distinct : (names (callArguments descriptor ++ last)).Nodup) :
    (pathIdentifiers descriptor).Nodup := by
  rw [names_append] at distinct
  have calls := (List.nodup_append'.mp distinct).1
  rw [(names_callArguments_perm descriptor).nodup_iff, names_pathArguments] at calls
  exact (List.nodup_append'.mp calls).1

theorem nodup_function_iff :
    (names (function descriptor).arguments).Nodup ↔ (pathIdentifiers descriptor).Nodup :=
  ⟨nodup_pathIdentifiers, fun distinct => (List.nodup_append'.mp (nodup_function distinct)).1⟩

theorem nodup_hook_iff :
    (names (hookArguments descriptor)).Nodup ↔ (pathIdentifiers descriptor).Nodup :=
  ⟨nodup_pathIdentifiers, nodup_hook⟩

end Fetch

namespace Endpoint

/-- The parameters of the generated functions are distinct exactly if no two placeholders of the route,
one of them repeated included, stand for names with one identifier. -/
theorem arguments_distinct_iff {resolver : Resolver} {naming : Naming} {endpoint : Endpoint}
    {operation : SynthesizedOperation}
    (made : (endpoint.synthesize resolver naming).outcome = .ok operation) :
    ∃ declared, endpoint.parameters resolver = .ok declared ∧
      ((pathIdentifiers operation.descriptor).Nodup ↔
        (endpoint.pathNames declared).Pairwise fun first later => ¬Identifier.Alike first later) ∧
      ((names (Fetch.function operation.descriptor).arguments).Nodup ↔
        (pathIdentifiers operation.descriptor).Nodup) ∧
      ((names (hookArguments operation.descriptor)).Nodup ↔
        (pathIdentifiers operation.descriptor).Nodup) := by
  obtain ⟨declared, parts, described, rfl⟩ := synthesize_described made
  refine ⟨declared, described.merged, ?_, nodup_function_iff, nodup_hook_iff⟩
  rw [pathIdentifiers_assemble described, List.Nodup, List.pairwise_map]
  constructor
  · exact List.Pairwise.imp fun different alike => different (Identifier.ofName_eq_iff.mpr alike)
  · exact List.Pairwise.imp fun apart same => apart (Identifier.ofName_eq_iff.mp same)

/-- Takes a door out of a room, with parameters that match the placeholders by their words. -/
def removeDoor : Endpoint where
  route := "/rooms/{room_id}/doors/{door-id}"
  verb := .delete
  operation := {
    parameters := [
      .inline { name := "doorId", location := .path, required := true },
      .inline { name := "roomId", location := .path, required := true },
      .inline { name := "X-Reason", location := .header }] }

theorem removeDoor_distinct : ∃ operation,
    (removeDoor.synthesize ⟨{}, []⟩ Naming.none).outcome = .ok operation ∧
      (pathIdentifiers operation.descriptor).Nodup ∧
      (names (Fetch.function operation.descriptor).arguments).Nodup ∧
      (names (hookArguments operation.descriptor)).Nodup := by
  obtain ⟨operation, made⟩ := exists_ok
    (show (removeDoor.synthesize ⟨{}, []⟩ Naming.none).outcome.isOk = true by decide +kernel)
  obtain ⟨declared, given, identifiers, function, hook⟩ := arguments_distinct_iff made
  have apart : (removeDoor.parameters ⟨{}, []⟩).toOption.map (fun declared =>
      decide ((removeDoor.pathNames declared).Pairwise fun first later =>
        ¬Identifier.Alike first later)) = some true := by
    decide +kernel
  rw [given] at apart
  have distinct := identifiers.mpr (of_decide_eq_true (Option.some.inj apart))
  exact ⟨operation, made, distinct, function.mpr distinct, hook.mpr distinct⟩

/-- Looks up a door with two parameters that have one identifier. -/
def doorLookup : Endpoint where
  route := "/rooms/{room-id}/doors/{roomId}"
  verb := .get
  operation := {
    operationId := some "getDoor"
    parameters := [
      .inline { name := "room-id", location := .path, required := true },
      .inline { name := "roomId", location := .path, required := true }] }

theorem doorLookup_repeats : ∃ operation,
    (doorLookup.synthesize ⟨{}, []⟩ Naming.none).outcome = .ok operation ∧
      ¬(pathIdentifiers operation.descriptor).Nodup ∧
      ¬(names (Fetch.function operation.descriptor).arguments).Nodup := by
  obtain ⟨operation, made⟩ := exists_ok
    (show (doorLookup.synthesize ⟨{}, []⟩ Naming.none).outcome.isOk = true by decide +kernel)
  have shown : (doorLookup.synthesize ⟨{}, []⟩ Naming.none).outcome.toOption.map (fun operation =>
      (pathIdentifiers operation.descriptor, names (Fetch.function operation.descriptor).arguments)) =
        some (["roomId", "roomId"], ["roomId", "roomId", "options"]) := by
    decide +kernel
  rw [made] at shown
  obtain ⟨identifiers, arguments⟩ := Prod.mk.inj (Option.some.inj shown)
  refine ⟨operation, made, ?_, ?_⟩
  · rw [identifiers]
    decide
  · rw [arguments]
    decide

end Endpoint

/-! ### Captured names -/

namespace Fetch

/-- What the body of a function refers to. -/
def bodyNames : List String :=
  ["fetch", "toQueryString", "readBody", "ApiError", "JSON"]

variable (descriptor : Descriptor)

theorem mem_names_followed {last : Argument} {name : String} :
    name ∈ names (callArguments descriptor ++ [last]) ↔
      name ∈ pathIdentifiers descriptor ∨ name ∈ names (fixedArguments descriptor ++ [last]) := by
  rw [names_append, names_append, List.mem_append, List.mem_append,
    (names_callArguments_perm descriptor).mem_iff, List.mem_append, names_pathArguments, or_assoc]

theorem names_fixed_subset (base : String) {last : Argument}
    (free : last.name = freeName descriptor base) :
    names (fixedArguments descriptor ++ [last]) ⊆
      (fixedBases ++ [base]).map (freeName descriptor) := by
  have spread := (names_fixedArguments_sublist descriptor).append_right [freeName descriptor base]
  have own : names [last] = [freeName descriptor base] := by rw [names, List.map_singleton, free]
  rw [names_append, own, List.map_append]
  exact spread.subset

theorem function_disjoint_iff : (names (function descriptor).arguments).Disjoint bodyNames ↔
    (pathIdentifiers descriptor).Disjoint bodyNames := by
  have fixed := freeNames_disjoint descriptor (fixedBases ++ ["options"]) bodyNames (by decide)
    (by decide) (by decide)
  constructor
  · intro apart name path needed
    exact apart ((mem_names_followed descriptor).mpr (.inl path)) needed
  · intro apart name argument needed
    rcases (mem_names_followed descriptor).mp argument with path | free
    · exact apart path needed
    · exact fixed (names_fixed_subset descriptor "options" rfl free) needed

end Fetch

namespace QueryHooks

/-- What the body of a query hook calls. -/
def calledNames (descriptor : Descriptor) : List String :=
  [functionName descriptor, keyName descriptor, "useQuery"]

variable (descriptor : Descriptor)

theorem freeName_ne_keyName {base : String} (listed : base ∈ fixedBases ++ ["queryOptions"]) :
    freeName descriptor base ≠ keyName descriptor := by
  intro same
  have ends : ∀ base ∈ fixedBases ++ ["queryOptions"],
      base.toList ≠ [] ∧ base.toList.getLast? ≠ some 'y' := by decide
  have last := congrArg (fun name => name.toList.getLast?) same
  simp only [getLast?_freeName descriptor (ends base listed).1, keyName, String.toList_append] at last
  rw [List.getLast?_append_of_ne_nil _ (by decide)] at last
  exact (ends base listed).2 last

theorem hook_disjoint_iff : (names (hookArguments descriptor)).Disjoint (calledNames descriptor) ↔
    (pathIdentifiers descriptor).Disjoint (calledNames descriptor) ∧
      functionName descriptor ∉ names (fixedArguments descriptor ++ [queryOptions descriptor]) := by
  have library := freeNames_disjoint descriptor (fixedBases ++ ["queryOptions"]) ["useQuery"]
    (by decide) (by decide) (by decide)
  constructor
  · intro apart
    constructor
    · intro name path called
      exact apart ((mem_names_followed descriptor).mpr (.inl path)) called
    · intro fixed
      exact apart ((mem_names_followed descriptor).mpr (.inr fixed)) List.mem_cons_self
  · rintro ⟨apart, own⟩ name argument called
    rcases (mem_names_followed descriptor).mp argument with path | fixed
    · exact apart path called
    · have free := names_fixed_subset descriptor "queryOptions" rfl fixed
      rcases List.mem_cons.mp called with rfl | called
      · exact own fixed
      rcases List.mem_cons.mp called with rfl | called
      · obtain ⟨base, listed, same⟩ := List.mem_map.mp free
        exact freeName_ne_keyName descriptor listed same
      · exact library free called

end QueryHooks

namespace Endpoint

/-- The body of a function is captured exactly if a placeholder stands for a name whose words join to
one that the body refers to. The body of a query hook is captured exactly if a placeholder has the
identifier of something called there, or a fixed argument the name of the function. -/
theorem captures_iff {resolver : Resolver} {naming : Naming} {endpoint : Endpoint}
    {operation : SynthesizedOperation}
    (made : (endpoint.synthesize resolver naming).outcome = .ok operation) :
    ∃ declared, endpoint.parameters resolver = .ok declared ∧
      ((names (Fetch.function operation.descriptor).arguments).Disjoint bodyNames ↔
        ∀ source ∈ endpoint.pathNames declared,
          String.ofList (Identifier.joined source) ∉ bodyNames) ∧
      ((names (hookArguments operation.descriptor)).Disjoint (calledNames operation.descriptor) ↔
        (∀ source ∈ endpoint.pathNames declared,
          Identifier.ofName source ∉ calledNames operation.descriptor) ∧
        functionName operation.descriptor ∉
          names (fixedArguments operation.descriptor ++ [queryOptions operation.descriptor])) := by
  obtain ⟨declared, parts, described, rfl⟩ := synthesize_described made
  refine ⟨declared, described.merged, (function_disjoint_iff _).trans ?_,
    (hook_disjoint_iff _).trans (and_congr_left' ?_)⟩
  -- No name of the body needs or has an underscore, so it is the identifier of what joins to it.
  · have plain : ∀ name ∈ bodyNames, Identifier.needsGuard name.toList = false ∧
        name.toList.head? ≠ some '_' := by decide +kernel
    constructor
    · intro apart source member needed
      refine apart ((mem_pathIdentifiers_assemble described).mpr ⟨source, member, ?_⟩) needed
      exact (Identifier.ofName_eq_iff_joined (plain _ needed).1 (plain _ needed).2).mpr
        (String.toList_ofList).symm
    · intro apart identifier path needed
      obtain ⟨source, member, same⟩ := (mem_pathIdentifiers_assemble described).mp path
      refine apart source member ?_
      rwa [(Identifier.ofName_eq_iff_joined (plain _ needed).1 (plain _ needed).2).mp same,
        String.ofList_toList]
  · constructor
    · intro apart source member
      exact apart ((mem_pathIdentifiers_assemble described).mpr ⟨source, member, rfl⟩)
    · intro apart identifier path
      obtain ⟨source, member, rfl⟩ := (mem_pathIdentifiers_assemble described).mp path
      exact apart source member

/-- Looks up a pet, with a placeholder and a query parameter that are called like fixed arguments. -/
def petLookup : Endpoint where
  route := "/pets/{params}"
  verb := .get
  operation := {
    operationId := some "getPet"
    parameters := [
      .inline { name := "params", location := .path, required := true },
      .inline { name := "expand", location := .query }] }

theorem petLookup_uncaptured : ∃ operation,
    (petLookup.synthesize ⟨{}, []⟩ Naming.none).outcome = .ok operation ∧
      (names (Fetch.function operation.descriptor).arguments).Disjoint bodyNames ∧
      (names (hookArguments operation.descriptor)).Disjoint (calledNames operation.descriptor) := by
  obtain ⟨operation, made⟩ := exists_ok
    (show (petLookup.synthesize ⟨{}, []⟩ Naming.none).outcome.isOk = true by decide +kernel)
  obtain ⟨declared, given, body, hook⟩ := captures_iff made
  have sources : (petLookup.parameters ⟨{}, []⟩).toOption.map petLookup.pathNames =
      some ["params"] := by
    decide +kernel
  rw [given] at sources
  have called : (petLookup.synthesize ⟨{}, []⟩ Naming.none).outcome.toOption.map (fun operation =>
      (calledNames operation.descriptor, functionName operation.descriptor,
        names (fixedArguments operation.descriptor ++ [queryOptions operation.descriptor]))) =
          some (["getPet", "getPetKey", "useQuery"], "getPet", ["_params", "queryOptions"]) := by
    decide +kernel
  rw [made] at called
  simp only [Except.toOption, Option.map_some, Option.some.injEq, Prod.mk.injEq] at sources called
  refine ⟨operation, made, body.mpr ?_, hook.mpr ?_⟩
  · rw [sources]
    decide +kernel
  · rw [sources, called.1, called.2.1, called.2.2]
    decide +kernel

/-- Looks up a pet by an operation that is called like its placeholder. -/
def petByName : Endpoint where
  route := "/pets/{pet}"
  verb := .get
  operation := {
    operationId := some "pet"
    parameters := [.inline { name := "pet", location := .path, required := true }] }

/-- The hook calls its own parameter instead of the function. -/
theorem petByName_captured : ∃ operation,
    (petByName.synthesize ⟨{}, []⟩ Naming.none).outcome = .ok operation ∧
      operation.descriptor.verb.isQuery = true ∧
      functionName operation.descriptor ∈ names (hookArguments operation.descriptor) := by
  obtain ⟨operation, made⟩ := exists_ok
    (show (petByName.synthesize ⟨{}, []⟩ Naming.none).outcome.isOk = true by decide +kernel)
  have shown : (petByName.synthesize ⟨{}, []⟩ Naming.none).outcome.toOption.map (fun operation =>
      decide (operation.descriptor.verb.isQuery = true ∧
        functionName operation.descriptor ∈ names (hookArguments operation.descriptor))) =
          some true := by
    decide +kernel
  rw [made] at shown
  exact ⟨operation, made, of_decide_eq_true (Option.some.inj shown)⟩

end Endpoint
end TypedClient
