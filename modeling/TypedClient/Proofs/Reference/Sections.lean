import TypedClient.Proofs.Generation.Run
import TypedClient.Proofs.Reference.Chains
import TypedClient.Proofs.Synthesis.Definitions

/-!
The sections of the components whose entries may be references to one another. Registration looks at one
reference of a chain at a time, and the lookup for an operation follows the whole chain.
-/
namespace TypedClient.Resolver

/-- A section whose entries are registered, a reference as an alias of its target. -/
structure Section (resolver : Resolver) (α : Type) where
  root : Root
  table : List (String × Referable α)
  component : String → Referable α → Component
  declared : ∀ entry ∈ table, component entry.1 entry.2 ∈ resolver.declared
  contains : ∀ key, resolver.contains ⟨root, key⟩ = Entries.has key table
  typeName : ∀ key item, (component key item).typeName = root.typeName key
  reference : ∀ key path, (component key (.reference path)).definition resolver =
    Component.aliasDefinition resolver (root.typeName key) path

def responses (resolver : Resolver) : resolver.Section Response where
  root := .response
  table := resolver.components.responses
  component := .response
  declared entry member := by simp [declared, member]
  contains _ := rfl
  typeName _ _ := rfl
  reference _ _ := rfl

def requestBodies (resolver : Resolver) : resolver.Section RequestBody where
  root := .requestBody
  table := resolver.components.requestBodies
  component := .requestBody
  declared entry member := by simp [declared, member]
  contains _ := rfl
  typeName _ _ := rfl
  reference _ _ := rfl

variable {resolver : Resolver}

theorem registered_log (registered : (resolver.registerComponents {}).2.outcome = .ok ()) :
    ∃ log, List.Forall₂ resolver.Registers resolver.declared log ∧
      (resolver.registerComponents {}).1 = log.foldl Registry.insert {} := by
  obtain ⟨⟨⟩, made, -⟩ := Traced.bind_ok registered
  exact register_log made

theorem registered_of_definitions (each : ∀ component ∈ resolver.declared, ∃ definition,
    (component.definition resolver).outcome = .ok definition) :
    (resolver.registerComponents {}).2.outcome = .ok () := by
  have made := register_ok each {}
  simp [registerComponents, made, Except.bind]

theorem registered_of_isOk (success : (resolver.registerComponents {}).2.outcome.isOk = true) :
    (resolver.registerComponents {}).2.outcome = .ok () := by
  obtain ⟨⟨⟩, made⟩ := exists_ok success
  exact made

/-- Registration fails on a reference that is malformed or finds no target. -/
theorem Section.linked {α : Type} (entries : resolver.Section α)
    (registered : (resolver.registerComponents {}).2.outcome = .ok ()) :
    ∀ entry ∈ entries.table, Linked entries.root entries.table entry.2 := by
  rintro ⟨key, item⟩ member path rfl
  obtain ⟨log, components, -⟩ := registered_log registered
  obtain ⟨entry, -, registers⟩ := InStep.right_of_left components (entries.declared _ member)
  have made := registers.definition
  rw [entries.reference] at made
  obtain ⟨name, resolved, -⟩ := Traced.bind_ok made
  obtain ⟨⟨root, key⟩, parsed, present, -⟩ := parse_of_resolve resolved
  refine ⟨⟨root, key⟩, parsed, fun same => ?_⟩
  obtain rfl : root = entries.root := same
  exact (entries.contains key).symm.trans present

theorem Section.follow_isOk_iff {α : Type} (entries : resolver.Section α)
    (registered : (resolver.registerComponents {}).2.outcome = .ok ())
    {entry : String × Referable α} (member : entry ∈ entries.table) :
    (follow entries.root entries.table maxReferenceSteps entry.2).isOk = true ↔
      ¬Strays entries.root entries.table entry.2 ∧
        ¬Lasts entries.root entries.table maxReferenceSteps entry.2 :=
  TypedClient.follow_isOk_iff (entries.linked registered) (entries.linked registered entry member)

/-- So many responses in a row, each but the last a reference to the next. -/
def responseRow (length : Nat) : Resolver where
  components := { responses := (List.range length).map fun index => (key index, item index) }
  schemas := []
where
  key (index : Nat) : String := String.ofList (List.replicate (index + 1) 'p')
  item (index : Nat) : Referable Response :=
    if index + 1 < length then .reference (Root.response.stem ++ key (index + 1)) else .inline {}

namespace responseRow

variable {length : Nat}

theorem key_injective : Function.Injective key := by
  intro index index' same
  have longer := congrArg (fun name => name.toList.length) same
  simpa [key] using longer

theorem distinct : Entries.Distinct (responseRow length).components.responses := by
  unfold Entries.Distinct responseRow
  rw [List.map_map]
  exact List.nodup_range.map key_injective

theorem parse_key (index : Nat) :
    Target.parse (Root.response.stem ++ key index) = .ok ⟨.response, key index⟩ :=
  Target.parse_stem .response (by simp [key]) (by simp [key])

theorem get?_key {index : Nat} (within : index < length) :
    Entries.get? (key index) (responseRow length).components.responses = some (item length index) :=
  distinct.get?_eq (List.mem_map_of_mem (List.mem_range.mpr within))

theorem item_of_more {index : Nat} (more : index + 1 < length) :
    item length index = .reference (Root.response.stem ++ key (index + 1)) :=
  if_pos more

theorem registered (length : Nat) :
    ((responseRow length).registerComponents {}).2.outcome = .ok () := by
  refine registered_of_definitions fun component member => ?_
  obtain ⟨index, -, rfl⟩ : ∃ index < length, .response (key index) (item length index) = component := by
    simpa [declared, responseRow] using member
  by_cases more : index + 1 < length
  · have present := Entries.has_of_get? (get?_key more)
    rw [item_of_more more, Component.definition, Component.aliasDefinition]
    simp [resolve, parse_key, contains, present, bind, Except.bind]
  · rw [item, if_neg more]
    exact ⟨_, rfl⟩

theorem lasts {steps index : Nat} (within : index + steps < length) :
    Lasts .response (responseRow length).components.responses steps (item length index) := by
  induction steps generalizing index with
  | zero => exact ⟨[], _, .here _, rfl⟩
  | succ steps ih =>
    have more : index + 1 < length := by omega
    rw [item_of_more more, lasts_reference_iff (parse_key _) (get?_key more)]
    exact ih (by omega)

end responseRow

end TypedClient.Resolver
