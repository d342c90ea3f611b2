import TypedClient.Proofs.Schema.Nodes

/-!
The nodes that count. By its shape a node reads some of its keywords and passes over the others, and a
reference that stands where nothing is read is never looked at.
-/
namespace TypedClient.Schema

/-- The members of a composition that are not null types. -/
def properMembers (schema : Schema) (composition : Composition) : List Schema :=
  ((schema.members composition).getD []).filter fun member => !member.isNullType

/-- The nodes under the keywords of an object. -/
def objectNodes (schema : Schema) : List Schema :=
  (schema.properties.getD []).map (·.2) ++ (schema.additional.bind (·.schema?)).toList

/-- The nodes directly inside that the shape of the node reads. -/
def readNodes (schema : Schema) : List Schema :=
  match schema.shape with
  | .composite .allOf =>
    schema.properMembers .allOf ++ if schema.properties.isSome then schema.objectNodes else []
  | .composite composition => schema.properMembers composition
  | .array => schema.items.toList
  | .object => schema.objectNodes
  | _ => []

/-- The reference stands in the node where it is read: it is the node, or that of a node read inside. -/
inductive Refers : Schema → String → Prop where
  | here {schema : Schema} {path : String} (shape : schema.shape = .reference path) :
      Refers schema path
  | inside {schema node : Schema} {path : String} (read : node ∈ schema.readNodes)
      (refers : Refers node path) : Refers schema path

variable {schema node : Schema}

theorem mem_children_of_properMembers {composition : Composition}
    (proper : node ∈ schema.properMembers composition) : node ∈ schema.children :=
  member_mem_children (List.mem_filter.mp proper).1

theorem mem_children_of_objectNodes (member : node ∈ schema.objectNodes) :
    node ∈ schema.children := by
  rcases List.mem_append.mp member with property | values <;> simp [children, *]

theorem mem_children_of_readNodes (read : node ∈ schema.readNodes) : node ∈ schema.children := by
  unfold readNodes at read
  split at read
  · rcases List.mem_append.mp read with proper | own
    · exact mem_children_of_properMembers proper
    · split at own
      · exact mem_children_of_objectNodes own
      · cases own
  · exact mem_children_of_properMembers read
  · exact items_mem_children (Option.mem_toList.mp read)
  · exact mem_children_of_objectNodes read
  · cases read

theorem not_refers_of_empty {path : String} (shape : schema.shape = .empty) :
    ¬schema.Refers path := by
  rintro (shape' | ⟨read, refers⟩)
  · cases shape.symm.trans shape'
  · simp [readNodes, shape] at read

end TypedClient.Schema
