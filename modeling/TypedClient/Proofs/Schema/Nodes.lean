import TypedClient.Document.Schema

/-!
The nodes of a schema at any depth, under whatever keyword they stand. Proofs about schemas go by
`induct_children`, with a hypothesis for each node directly inside.
-/
namespace TypedClient

def Additional.schema? {σ : Type} : Additional σ → Option σ
  | .values schema => some schema
  | .flag _ => none

namespace Schema

/-- The nodes directly inside. -/
def children (schema : Schema) : List Schema :=
  (schema.properties.getD []).map (·.2) ++ schema.items.toList ++ schema.allOf.getD [] ++
    schema.oneOf.getD [] ++ schema.anyOf.getD [] ++ (schema.additional.bind (·.schema?)).toList

section Children

variable {schema child : Schema}

theorem property_mem_children {properties : List (String × Schema)} {entry : String × Schema}
    (declared : schema.properties = some properties) (member : entry ∈ properties) :
    entry.2 ∈ schema.children := by
  have present : entry.2 ∈ properties.map (·.2) := List.mem_map_of_mem member
  simp only [children, declared, Option.getD_some, List.mem_append]
  simp [present]

theorem items_mem_children (declared : schema.items = some child) : child ∈ schema.children := by
  simp [children, declared]

theorem member_mem_children {composition : Composition}
    (member : child ∈ (schema.members composition).getD []) : child ∈ schema.children := by
  cases composition <;> simp only [members] at member <;> simp [children, member]

theorem values_mem_children (declared : schema.additional = some (.values child)) :
    child ∈ schema.children := by
  simp [children, declared, Additional.schema?]

theorem sizeOf_mem_getD {nodes : Option (List Schema)} (member : child ∈ nodes.getD []) :
    sizeOf child < sizeOf nodes := by
  cases nodes with
  | none => cases member
  | some nodes =>
    have below := List.sizeOf_lt_of_mem (show child ∈ nodes from member)
    simp
    omega

theorem sizeOf_mem_properties {properties : Option (List (String × Schema))}
    (member : child ∈ (properties.getD []).map (·.2)) : sizeOf child < sizeOf properties := by
  cases properties with
  | none => cases member
  | some properties =>
    obtain ⟨⟨name, value⟩, present, rfl⟩ := List.mem_map.mp member
    have below := List.sizeOf_lt_of_mem (show (name, value) ∈ properties from present)
    simp at below ⊢
    omega

theorem sizeOf_mem_additional {additional : Option (Additional Schema)}
    (member : child ∈ (additional.bind (·.schema?)).toList) : sizeOf child < sizeOf additional := by
  match additional with
  | none => cases member
  | some (.flag allowed) => cases member
  | some (.values schema) =>
    obtain rfl := List.mem_singleton.mp member
    simp
    omega

theorem sizeOf_child (member : child ∈ schema.children) : sizeOf child < sizeOf schema := by
  obtain ⟨facets, properties, items, allOf, oneOf, anyOf, additional⟩ := schema
  simp only [children, List.mem_append] at member
  rw [mk.sizeOf_spec]
  rcases member with ((((member | member) | member) | member) | member) | member
  · have below := sizeOf_mem_properties member
    omega
  · obtain rfl := Option.mem_toList.mp member
    simp
    omega
  · have below := sizeOf_mem_getD member
    omega
  · have below := sizeOf_mem_getD member
    omega
  · have below := sizeOf_mem_getD member
    omega
  · have below := sizeOf_mem_additional member
    omega

end Children

@[elab_as_elim]
theorem induct_children {motive : Schema → Prop}
    (step : ∀ schema, (∀ child ∈ schema.children, motive child) → motive schema)
    (schema : Schema) : motive schema :=
  step schema fun child member =>
    have := sizeOf_child member
    induct_children step child
termination_by sizeOf schema

/-- All nodes strictly inside. -/
def inner (schema : Schema) : List Schema :=
  schema.children.attach.flatMap fun child =>
    have := sizeOf_child child.2
    child.1 :: inner child.1
termination_by sizeOf schema

theorem inner_eq (schema : Schema) :
    schema.inner = schema.children.flatMap fun child => child :: child.inner := by
  rw [inner]
  simp

theorem mem_inner {node schema : Schema} :
    node ∈ schema.inner ↔ ∃ child ∈ schema.children, node = child ∨ node ∈ child.inner := by
  simp [inner_eq schema]

end Schema
end TypedClient
