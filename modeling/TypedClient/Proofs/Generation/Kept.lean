import TypedClient.Proofs.Document.Keyed
import TypedClient.Proofs.Generation.Run
import TypedClient.Proofs.Operation.Owned
import TypedClient.Proofs.Schema.References
import TypedClient.Proofs.Synthesis.Definitions

/-!
Which definitions survive in a registry without collisions. The name of a definition is a function of
its source, so that one source has one name, and without collisions one name has one source. What is
made from a component is kept, and what is made from an operation is kept unless another operation of
the same derived name registers something else in the same role.
-/
namespace TypedClient

/-! ### Logs without collisions -/

namespace Registry

variable {log : List Registration} (silent : (log.foldl insert {}).collisions = [])
include silent

/-- Under the name of a registration stands a definition that was made from the same source. -/
theorem stands_of_silent {entry : Registration} (member : entry ∈ log) :
    ∃ last ∈ log, (log.foldl insert {}).get? entry.definition.name = some last.definition ∧
      last.source = entry.source := by
  obtain ⟨last, stands, source⟩ := source_of_silent silent member
  rcases mem_entries_foldl (List.mem_of_find?_eq_some stands) with registered | none
  · exact ⟨last, registered, by simp [get?, stands], source⟩
  · cases none

/-- All definitions of a source are kept exactly if there is only one of them. -/
theorem kept_iff_agree (proper : ∀ entry ∈ log, entry.Proper) (source : Source) :
    (∀ definition, ⟨definition, source⟩ ∈ log →
        (log.foldl insert {}).get? definition.name = some definition) ↔
      ∀ first second, ⟨first, source⟩ ∈ log → ⟨second, source⟩ ∈ log → first = second := by
  constructor
  · intro kept first second registered registered'
    have same : first.name = second.name :=
      (proper _ registered).trans (proper _ registered').symm
    have held := kept first registered
    rw [same, kept second registered'] at held
    exact (Option.some.inj held).symm
  · intro agree definition registered
    obtain ⟨⟨last, _⟩, registered', stands, rfl⟩ := stands_of_silent silent registered
    rw [stands, agree last definition registered' registered]

end Registry

/-! ### Runs -/

/-- The definitions that a document is turned into, with what each is made from. -/
inductive Document.Registers (naming : Naming) (document : Document) : Registration → Prop where
  | component {schemas : List (String × Schema)} {component : Component} {definition : Definition}
      (normalized : (normalizeDiscriminators document.components.schemas).outcome = .ok schemas)
      (declared : component ∈ Resolver.declared ⟨document.components, schemas⟩)
      (made : (component.definition ⟨document.components, schemas⟩).outcome = .ok definition) :
      Registers naming document ⟨definition, component.source⟩
  | operation {schemas : List (String × Schema)} {endpoint : Endpoint}
      {operation : SynthesizedOperation} {entry : Registration}
      (normalized : (normalizeDiscriminators document.components.schemas).outcome = .ok schemas)
      (declared : endpoint ∈ document.endpoints)
      (made : (endpoint.synthesize ⟨document.components, schemas⟩ naming).outcome = .ok operation)
      (member : entry ∈ operation.auxiliary) : Registers naming document entry

theorem Resolver.declared_unique {resolver : Resolver} (schemas : Entries.Distinct resolver.schemas)
    (keyed : resolver.components.Keyed) {first second : Component}
    (declared : first ∈ resolver.declared) (declared' : second ∈ resolver.declared)
    (same : first.source = second.source) : first = second := by
  match first, second, same with
  | .schema key node, .schema _ other, rfl =>
    have held : (key, node) ∈ resolver.schemas := by simpa [Resolver.declared] using declared
    have held' : (key, other) ∈ resolver.schemas := by simpa [Resolver.declared] using declared'
    rw [schemas.value_unique held held']
  | .response key given, .response _ other, rfl =>
    have held : (key, given) ∈ resolver.components.responses := by
      simpa [Resolver.declared] using declared
    have held' : (key, other) ∈ resolver.components.responses := by
      simpa [Resolver.declared] using declared'
    rw [keyed.responses.value_unique held held']
  | .requestBody key given, .requestBody _ other, rfl =>
    have held : (key, given) ∈ resolver.components.requestBodies := by
      simpa [Resolver.declared] using declared
    have held' : (key, other) ∈ resolver.components.requestBodies := by
      simpa [Resolver.declared] using declared'
    rw [keyed.requestBodies.value_unique held held']

namespace Generation

namespace Run

variable {naming : Naming} {document : Document} (run : Run naming document)

theorem mem_log_iff {entry : Registration} :
    entry ∈ run.log ↔ document.Registers naming entry := by
  constructor
  · intro member
    rcases List.mem_append.mp member with registered | auxiliary
    · obtain ⟨component, declared, registers⟩ := InStep.left_of_right run.components registered
      obtain ⟨definition, source⟩ := entry
      obtain rfl := registers.source
      exact .component run.normalized declared registers.definition
    · obtain ⟨operation, present, auxiliary⟩ := List.mem_flatMap.mp auxiliary
      obtain ⟨endpoint, listed, made⟩ := InStep.left_of_right run.operations present
      exact .operation run.normalized listed made auxiliary
  · intro registers
    cases registers with
    | component normalized declared made =>
      obtain rfl := Except.ok.inj (run.normalized.symm.trans normalized)
      obtain ⟨entry, registered, registers⟩ := InStep.right_of_left run.components declared
      obtain ⟨definition, source⟩ := entry
      obtain rfl := Except.ok.inj (registers.definition.symm.trans made)
      obtain rfl := registers.source
      exact List.mem_append_left _ registered
    | operation normalized declared made auxiliary =>
      obtain rfl := Except.ok.inj (run.normalized.symm.trans normalized)
      obtain ⟨operation, present, made'⟩ := InStep.right_of_left run.operations declared
      obtain rfl := Except.ok.inj (made'.symm.trans made)
      exact List.mem_append_right _ (List.mem_flatMap.mpr ⟨_, present, auxiliary⟩)

theorem log_proper {entry : Registration} (member : entry ∈ run.log) : entry.Proper := by
  rcases run.origin_of_mem_log member with ⟨component, -, registers⟩ |
    ⟨endpoint, -, declared, parts, described, auxiliary⟩
  · have defines := Component.definition_defines registers.definition
    rw [Registration.Proper, registers.source, component.typeName_source, defines.name]
  · exact (described.auxiliary_owned auxiliary).1

theorem component_of_log {source : Source} {definition : Definition}
    (component : ∀ name role, source ≠ .operation name role) (member : ⟨definition, source⟩ ∈ run.log) :
    ∃ component ∈ run.resolver.declared,
      (component.definition run.resolver).outcome = .ok definition ∧ component.source = source := by
  rcases run.origin_of_mem_log member with ⟨origin, declared, registers⟩ |
    ⟨endpoint, -, declared, parts, described, auxiliary⟩
  · exact ⟨origin, declared, registers.definition, registers.source.symm⟩
  · obtain ⟨-, role, same⟩ := described.auxiliary_owned auxiliary
    exact (component _ role same).elim

theorem schemas_distinct (keyed : document.components.Keyed) : Entries.Distinct run.schemas :=
  normalizeDiscriminators_distinct run.normalized keyed.schemas

/-- Only operations can share a source. -/
theorem component_agree (keyed : document.components.Keyed) {source : Source}
    (component : ∀ name role, source ≠ .operation name role) {first second : Definition}
    (registered : ⟨first, source⟩ ∈ run.log) (registered' : ⟨second, source⟩ ∈ run.log) :
    first = second := by
  obtain ⟨declared, present, made, source'⟩ := run.component_of_log component registered
  obtain ⟨other, present', made', source''⟩ := run.component_of_log component registered'
  obtain rfl := Resolver.declared_unique (run.schemas_distinct keyed) keyed present present'
    (source'.trans source''.symm)
  exact Except.ok.inj (made.symm.trans made')

end Run

/-- Without collisions, the definitions made from a source are all kept exactly if they agree, and only
operations of one derived name can disagree. -/
theorem definitions_kept_iff {naming : Naming} {document : Document} {generation : Generation}
    (made : (ofDocument naming document).outcome = .ok generation)
    (keyed : document.components.Keyed) (silent : generation.types.collisions = []) (source : Source) :
    (∀ definition, document.Registers naming ⟨definition, source⟩ →
        generation.types.get? definition.name = some definition) ↔
      ∀ name role, source = .operation name role →
        ∀ first second, document.Registers naming ⟨first, source⟩ →
          document.Registers naming ⟨second, source⟩ → first = second := by
  obtain ⟨run, rfl⟩ := ofDocument_run made
  simp only [← run.mem_log_iff]
  refine (Registry.kept_iff_agree silent (fun _ => run.log_proper) source).trans ⟨?_, ?_⟩
  · intro agree name role _
    exact agree
  · intro operations
    by_cases operation : ∃ name role, source = .operation name role
    · obtain ⟨name, role, same⟩ := operation
      exact operations name role same
    · intro first second
      exact run.component_agree keyed (fun name role same => operation ⟨name, role, same⟩)

def kindResponse (kind : String) : Referable Response :=
  .inline { content := [("application/json", { schema := some { type := some (.single kind) } })] }

def petCount : Document where
  paths := [("/pets/count", { operations := [("get",
    { operationId := some "countPets", responses := [("200", kindResponse "integer")] })] })]
  components := { schemas := [("Pet", { type := some (.single "object") })] }

theorem petCount_kept : ∃ generation,
    (ofDocument Naming.none petCount).outcome = .ok generation ∧
      ∀ definition, petCount.Registers Naming.none ⟨definition, .schema "Pet"⟩ →
        generation.types.get? definition.name = some definition := by
  obtain ⟨generation, made⟩ := exists_ok
    (show (ofDocument Naming.none petCount).outcome.isOk = true by decide +kernel)
  have counted : (ofDocument Naming.none petCount).outcome.toOption.map
      (·.types.collisions) = some [] := by decide +kernel
  rw [made] at counted
  have silent : generation.types.collisions = [] := Option.some.inj counted
  have keyed : petCount.components.Keyed :=
    ⟨List.nodup_singleton _, List.nodup_nil, List.nodup_nil⟩
  exact ⟨generation, made, (definitions_kept_iff made keyed silent (.schema "Pet")).mpr fun _ _ same =>
    nomatch same⟩

/-- Two operations that answer with a text and with a number, under names that are one after
capitalization. -/
def mergedOperations : Document where
  paths := [
    ("/pets", { operations := [("get",
      { operationId := some "listPets", responses := [("200", kindResponse "string")] })] }),
    ("/animals", { operations := [("get",
      { operationId := some "ListPets", responses := [("200", kindResponse "integer")] })] })]

theorem mergedOperations_registers : mergedOperations.Registers Naming.none
    ⟨⟨"ListPetsResponse", .scalar .string, none⟩, .operation "ListPets" .response⟩ := by
  have normalized :
      (normalizeDiscriminators mergedOperations.components.schemas).outcome = .ok [] := rfl
  refine .operation normalized List.mem_cons_self
    (show _ = Except.ok (Endpoint.assemble _ "ListPets"
      ⟨[], [], [], ⟨.scalar .void, false, []⟩, ⟨[.scalar .string], []⟩⟩) from rfl) ?_
  exact List.mem_singleton_self _

/-- The first of the two definitions is lost without a collision. -/
theorem mergedOperations_lost : ∃ generation definition,
    (ofDocument Naming.none mergedOperations).outcome = .ok generation ∧
      generation.types.collisions = [] ∧
      mergedOperations.Registers Naming.none ⟨definition, .operation "ListPets" .response⟩ ∧
      generation.types.get? definition.name ≠ some definition := by
  obtain ⟨generation, made⟩ := exists_ok
    (show (ofDocument Naming.none mergedOperations).outcome.isOk = true by decide +kernel)
  have counted : (ofDocument Naming.none mergedOperations).outcome.toOption.map
      (·.types.collisions) = some [] := by decide +kernel
  rw [made] at counted
  have silent : generation.types.collisions = [] := Option.some.inj counted
  have shown : ((ofDocument Naming.none mergedOperations).outcome.toOption.bind
      (·.types.get? "ListPetsResponse")).map (·.type.same (.scalar .string)) = some false := by
    decide +kernel
  rw [made] at shown
  refine ⟨generation, _, made, silent, mergedOperations_registers, fun kept => ?_⟩
  have same := (congrArg (Option.map (·.type.same (.scalar .string))) kept).symm.trans shown
  simp [TypeExpr.same] at same

end Generation
end TypedClient
