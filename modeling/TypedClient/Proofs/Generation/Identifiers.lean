import TypedClient.Proofs.Generation.Kept
import TypedClient.Proofs.Generation.Resolved
import TypedClient.Proofs.Identifier.Alphabet
import TypedClient.Proofs.Render.Capture

/-!
The names that a generation declares, as identifiers. Names made from component keys are valid, while the
name of an operation goes into type names as it is, and separators are all that functions and path
parameters leave out of a name.
-/
namespace TypedClient
open Identifier

/-- The keys that types are named for are over ASCII letters, digits, `_`, `-` and `.`. -/
structure Components.PlainlyKeyed (components : Components) : Prop where
  schemas : ∀ entry ∈ components.schemas, ∀ c ∈ entry.1.toList, isNameChar c = true
  responses : ∀ entry ∈ components.responses, ∀ c ∈ entry.1.toList, isNameChar c = true
  requestBodies : ∀ entry ∈ components.requestBodies, ∀ c ∈ entry.1.toList, isNameChar c = true

/-! ### Names of definitions -/

theorem Source.valid_operation_iff {alphabet : Alphabet} {operation : String} {role : Role} :
    alphabet.Valid (Source.operation operation role).typeName ↔ alphabet.Opens operation.toList := by
  have chars : (Source.operation operation role).typeName.toList =
      operation.toList ++ role.suffix.toList := String.toList_append
  have letters : ∀ c ∈ role.suffix.toList, isWordChar c = true := by
    cases role <;> exact List.all_eq_true.mp (by decide)
  obtain ⟨c, rest, shape, other, upper⟩ : ∃ c rest, role.suffix.toList = c :: rest ∧
      c.isDigit = false ∧ c.isLower = false := by
    cases role <;> exact ⟨_, _, rfl, by decide, by decide⟩
  have member : c ∈ role.suffix.toList := shape ▸ List.mem_cons_self
  have first : ∀ c ∈ role.suffix.toList.head?, c.isDigit = false := by
    rw [shape]
    exact fun _ head => Option.some.inj head ▸ other
  have free : isReserved (Source.operation operation role).typeName = false :=
    not_reserved_of_mem (by rw [chars]; exact List.mem_append_right _ member) upper
  rw [Alphabet.Valid, free, and_iff_left rfl, chars, Alphabet.opens_append letters first]
  exact and_iff_right (List.append_ne_nil_of_right_ne_nil _ (List.ne_nil_of_mem member))

namespace Generation.Run

variable {naming : Naming} {document : Document} (run : Run naming document)

theorem valid_component {alphabet : Alphabet} (keyed : document.components.PlainlyKeyed)
    {component : Component} (declared : component ∈ run.resolver.declared) :
    alphabet.Valid component.typeName := by
  match component with
  | .schema key node =>
    have held : (key, node) ∈ run.schemas := by
      simpa [Resolver.declared, resolver] using declared
    obtain ⟨entry, given, keeps⟩ :=
      InStep.left_of_right (normalizeDiscriminators_keeps run.normalized) held
    obtain rfl : key = entry.1 := keeps.key
    exact Alphabet.valid_typeName (keyed.schemas entry given) .schema
  | .response key item =>
    have held : (key, item) ∈ document.components.responses := by
      simpa [Resolver.declared, resolver] using declared
    exact Alphabet.valid_typeName (keyed.responses _ held) .response
  | .requestBody key item =>
    have held : (key, item) ∈ document.components.requestBodies := by
      simpa [Resolver.declared, resolver] using declared
    exact Alphabet.valid_typeName (keyed.requestBodies _ held) .requestBody

/-- The names of all definitions are valid exactly if those of operations with definitions can stand at
the start of an identifier. -/
theorem valid_names_iff {alphabet : Alphabet} (keyed : document.components.PlainlyKeyed) :
    (∀ name ∈ run.generation.types.names, alphabet.Valid name) ↔
      ∀ endpoint ∈ document.endpoints, ∀ definition role,
        document.Registers naming ⟨definition, .operation (endpoint.name naming) role⟩ →
          alphabet.Opens (endpoint.name naming).toList := by
  constructor
  · intro valid endpoint _ definition role registers
    have member := run.mem_log_iff.mpr registers
    have named := run.log_proper member
    exact Source.valid_operation_iff.mp (named ▸ valid _ (run.mem_names.mpr ⟨_, member, rfl⟩))
  · intro operations name member
    obtain ⟨entry, logged, rfl⟩ := run.mem_names.mp member
    rw [run.log_proper logged]
    rcases run.origin_of_mem_log logged with ⟨component, declared, registers⟩ |
      ⟨endpoint, listed, declared, parts, described, auxiliary⟩
    · rw [registers.source, component.typeName_source]
      exact run.valid_component keyed declared
    · obtain ⟨-, role, source⟩ := described.auxiliary_owned auxiliary
      have registers := run.mem_log_iff.mp logged
      obtain ⟨definition, _⟩ := entry
      obtain rfl := source
      exact Source.valid_operation_iff.mpr (operations endpoint listed definition role registers)

end Generation.Run

/-! ### Names of functions and path parameters -/

namespace Endpoint

theorem mergeAll_components (components : Components) (schemas others : List (String × Schema))
    (merged : List Parameter) (items : List (Referable Parameter)) :
    mergeAll ⟨components, schemas⟩ merged items = mergeAll ⟨components, others⟩ merged items := by
  induction items generalizing merged with
  | nil => rfl
  | cons item rest ih => simp only [mergeAll, Resolver.parameter, ih]

/-- What identifiers ask of the names behind an operation: of its own name, where it is a part of the
names of definitions, and of the words that its function and its path parameters are joined from. -/
structure Spellable (alphabet : Alphabet) (naming : Naming) (document : Document)
    (endpoint : Endpoint) : Prop where
  types : ∀ definition role,
    document.Registers naming ⟨definition, .operation (endpoint.name naming) role⟩ →
      alphabet.Opens (endpoint.name naming).toList
  function : alphabet.Joins (joined (uncapitalized (endpoint.name naming)))
  path : ∀ declared, endpoint.parameters document.resolver = .ok declared →
    ∀ source ∈ endpoint.pathNames declared, alphabet.Joins (joined source)

theorem valid_values_iff (alphabet : Alphabet) {document : Document}
    {schemas : List (String × Schema)} {naming : Naming} {endpoint : Endpoint}
    {operation : SynthesizedOperation}
    (made : (endpoint.synthesize ⟨document.components, schemas⟩ naming).outcome = .ok operation) :
    (alphabet.Joins (joined (uncapitalized (endpoint.name naming))) ∧
        ∀ declared, endpoint.parameters document.resolver = .ok declared →
          ∀ source ∈ endpoint.pathNames declared, alphabet.Joins (joined source)) ↔
      alphabet.Valid (Fetch.functionName operation.descriptor) ∧
        ∀ identifier ∈ Fetch.pathIdentifiers operation.descriptor, alphabet.Valid identifier := by
  obtain ⟨declared, parts, described, rfl⟩ := synthesize_described made
  have given : endpoint.parameters document.resolver = .ok declared :=
    (mergeAll_components ..).trans described.merged
  rw [given, pathIdentifiers_assemble described, List.forall_mem_map]
  simp only [Alphabet.valid_ofName_iff, Except.ok.injEq, forall_eq']
  exact and_congr_left' Alphabet.valid_ofName_iff.symm

end Endpoint

namespace Generation

/-- The names of definitions, and of each operation those of its function and its path parameters. -/
def declaredNames (generation : Generation) : List String :=
  generation.types.names ++ generation.components.flatMap fun descriptor =>
    Fetch.functionName descriptor :: Fetch.pathIdentifiers descriptor

/-- Over plain keys, the declared names are valid identifiers exactly if every operation is spellable. -/
theorem identifiers_valid_iff (alphabet : Alphabet) {naming : Naming} {document : Document}
    {generation : Generation} (keyed : document.components.PlainlyKeyed)
    (made : (ofDocument naming document).outcome = .ok generation) :
    (∀ name ∈ generation.declaredNames, alphabet.Valid name) ↔
      ∀ endpoint ∈ document.endpoints, endpoint.Spellable alphabet naming document := by
  obtain ⟨run, rfl⟩ := ofDocument_run made
  have values := InStep.forall_iff run.operations fun endpoint operation synthesized =>
    Endpoint.valid_values_iff alphabet synthesized
  rw [declaredNames, List.forall_mem_append, run.valid_names_iff keyed]
  have listed : (∀ name ∈ run.generation.components.flatMap fun descriptor =>
      Fetch.functionName descriptor :: Fetch.pathIdentifiers descriptor, alphabet.Valid name) ↔
        ∀ operation ∈ run.synthesized, alphabet.Valid (Fetch.functionName operation.descriptor) ∧
          ∀ identifier ∈ Fetch.pathIdentifiers operation.descriptor, alphabet.Valid identifier := by
    simp only [Run.generation, List.forall_mem_flatMap, List.forall_mem_map, List.forall_mem_cons]
  rw [listed, ← values, ← forall₂_and]
  refine forall₂_congr fun endpoint _ => ⟨?_, ?_⟩
  · rintro ⟨types, function, path⟩
    exact ⟨types, function, path⟩
  · rintro ⟨types, function, path⟩
    exact ⟨types, function, path⟩

/-- Component keys, an operation and placeholders that are spelled with separators, digits and a reserved
word. -/
def toyDocument : Document where
  paths := [("/toys/{toy-id}/{2nd}/{class}", {
    operations := [("get",
      { operationId := some "findToy", responses := [("200", kindResponse "string")] })] })]
  components := {
    schemas := [("pet.toy", { type := some (.single "object") }), ("2-toys", {})]
    responses := [("-", .inline {})] }

theorem toyDocument_valid : toyDocument.components.PlainlyKeyed ∧ ∃ generation,
    (ofDocument Naming.none toyDocument).outcome = .ok generation ∧
      ∀ name ∈ generation.declaredNames, Alphabet.ascii.Valid name := by
  have keyed : toyDocument.components.PlainlyKeyed := by
    constructor <;> (simp only [← List.all_eq_true]; decide +kernel)
  obtain ⟨generation, made⟩ := exists_ok
    (show (ofDocument Naming.none toyDocument).outcome.isOk = true by decide +kernel)
  refine ⟨keyed, generation, made, (identifiers_valid_iff .ascii keyed made).mpr ?_⟩
  intro endpoint listed
  obtain rfl := List.mem_singleton.mp listed
  refine ⟨fun _ _ _ => by decide +kernel, by decide +kernel, fun declared given => ?_⟩
  obtain rfl : declared = [] := (Except.ok.inj given).symm
  decide +kernel

/-- An operation whose name is spelled with a hyphen. -/
def kebabDocument : Document where
  paths := [("/pets", { operations := [("get",
    { operationId := some "list-pets", responses := [("200", kindResponse "string")] })] })]

/-- The type of its responses is declared under a name with a hyphen. -/
theorem kebabDocument_invalid : kebabDocument.components.PlainlyKeyed ∧ ∃ generation,
    (ofDocument Naming.none kebabDocument).outcome = .ok generation ∧
      ∀ alphabet : Alphabet, ∃ name ∈ generation.declaredNames, ¬alphabet.Valid name := by
  have keyed : kebabDocument.components.PlainlyKeyed := by
    constructor <;> decide
  obtain ⟨generation, made⟩ := exists_ok
    (show (ofDocument Naming.none kebabDocument).outcome.isOk = true by decide +kernel)
  refine ⟨keyed, generation, made, fun alphabet => ⟨"List-petsResponse", ?_, ?_⟩⟩
  · have shown : (ofDocument Naming.none kebabDocument).outcome.toOption.map (fun generation =>
        decide ("List-petsResponse" ∈ generation.declaredNames)) = some true := by
      decide +kernel
    rw [made] at shown
    exact of_decide_eq_true (Option.some.inj shown)
  · rintro ⟨-, ⟨continues, -⟩, -⟩
    have hyphen := continues '-' (by decide)
    rw [alphabet.continues_ascii '-' (by decide)] at hyphen
    exact absurd hyphen (by decide)

end Generation
end TypedClient
