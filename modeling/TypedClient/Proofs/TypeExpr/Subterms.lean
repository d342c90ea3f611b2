import TypedClient.TypeExpr

/-!
The parts of a type expression at any depth. `induct` gives a case for each constructor with a
hypothesis for each part, and what is said "at every depth" is said of all `subterms`.
-/
namespace TypedClient.TypeExpr

/-- The expressions directly inside. -/
def children : TypeExpr → List TypeExpr
  | .array items => [items]
  | .object fields index => fields.map (·.type) ++ index.toList
  | .union members => members
  | .intersection members => members
  | .nullable inner => [inner]
  | _ => []

theorem sizeOf_field_type (field : Field TypeExpr) : sizeOf field.type < sizeOf field := by
  cases field
  simp only [Field.mk.sizeOf_spec]
  omega

theorem sizeOf_child {part type : TypeExpr} (member : part ∈ type.children) :
    sizeOf part < sizeOf type := by
  cases type with
  | scalar | literals | named => cases member
  | array items =>
    obtain rfl := List.mem_singleton.mp member
    simp
  | nullable inner =>
    obtain rfl := List.mem_singleton.mp member
    simp
  | union members | intersection members =>
    have below := List.sizeOf_lt_of_mem (show part ∈ members from member)
    simp
    omega
  | object fields index =>
    rcases List.mem_append.mp member with declared | opened
    · obtain ⟨field, present, rfl⟩ := List.mem_map.mp declared
      have below := List.sizeOf_lt_of_mem present
      have inner := sizeOf_field_type field
      simp
      omega
    · obtain rfl := Option.mem_toList.mp opened
      simp
      omega

theorem induct_children {motive : TypeExpr → Prop}
    (step : ∀ type, (∀ part ∈ type.children, motive part) → motive type) (type : TypeExpr) :
    motive type :=
  step type fun part member =>
    have := sizeOf_child member
    induct_children step part
termination_by sizeOf type

@[elab_as_elim, induction_eliminator]
theorem induct {motive : TypeExpr → Prop} (scalar : ∀ kind, motive (.scalar kind))
    (literals : ∀ values, motive (.literals values))
    (array : ∀ items, motive items → motive (.array items))
    (object : ∀ fields index, (∀ field ∈ fields, motive field.type) →
      (∀ type, index = some type → motive type) → motive (.object fields index))
    (union : ∀ members, (∀ member ∈ members, motive member) → motive (.union members))
    (intersection : ∀ members, (∀ member ∈ members, motive member) →
      motive (.intersection members))
    (named : ∀ name, motive (.named name))
    (nullable : ∀ inner, motive inner → motive (.nullable inner)) (type : TypeExpr) :
    motive type := by
  refine induct_children (fun type parts => ?_) type
  cases type with
  | scalar kind => exact scalar kind
  | literals values => exact literals values
  | named name => exact named name
  | array items => exact array items (parts items (by simp [children]))
  | nullable inner => exact nullable inner (parts inner (by simp [children]))
  | union members => exact union members parts
  | intersection members => exact intersection members parts
  | object fields index =>
    refine object fields index (fun field present => parts _ ?_) (fun type opened => parts _ ?_)
    · exact List.mem_append_left _ (List.mem_map_of_mem present)
    · exact List.mem_append_right _ (Option.mem_toList.mpr opened)

/-- The expression and all expressions inside it. -/
def subterms (type : TypeExpr) : List TypeExpr :=
  type :: type.children.attach.flatMap fun part =>
    have := sizeOf_child part.2
    subterms part.1
termination_by sizeOf type

theorem subterms_eq (type : TypeExpr) : type.subterms = type :: type.children.flatMap subterms := by
  rw [subterms]
  simp

theorem mem_subterms {part type : TypeExpr} :
    part ∈ type.subterms ↔ part = type ∨ ∃ child ∈ type.children, part ∈ child.subterms := by
  rw [subterms_eq, List.mem_cons, List.mem_flatMap]

end TypedClient.TypeExpr
