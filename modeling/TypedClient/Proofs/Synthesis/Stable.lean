import TypedClient.Proofs.Synthesis.Typing

/-!
Properties that pass from the types inside a node to the type of the node. What a node is formed from is
opened here once for all of them.
-/
namespace TypedClient

/-- Every way in which types are built from others keeps the property. Objects are left out, since a
property may depend on the names of their fields. -/
structure TypeExpr.Stable (P : TypeExpr → Prop) : Prop where
  scalar {kind : Scalar} (proper : kind ≠ .void ∧ kind ≠ .unknown) : P (.scalar kind)
  emptyObject : P (.object [] none)
  literalsOf (values : List String) : P (.literalsOf values)
  array {items : TypeExpr} (inside : P items) : P (.array items)
  orNull {type : TypeExpr} (inside : P type) : P type.orNull
  unionOf {types : List TypeExpr} (each : ∀ type ∈ types, P type) : P (.unionOf types)
  intersectionOf {types : List TypeExpr} (each : ∀ type ∈ types, P type) : P (.intersectionOf types)

namespace Schema

/-- No keyword stands for a sentinel. -/
theorem kindScalar_proper (kind : String) : kindScalar kind ≠ .void ∧ kindScalar kind ≠ .unknown := by
  unfold kindScalar
  (repeat' split) <;> decide

section Stable

variable {P : TypeExpr → Prop} (stable : TypeExpr.Stable P) {resolver : Resolver} {schema : Schema}
include stable

theorem stable_any : P .any :=
  stable.scalar (by decide)

theorem stable_orNullIf {type : TypeExpr} (inside : P type) (nullable : Bool) :
    P (orNullIf nullable type) := by
  cases nullable with
  | false => exact inside
  | true => exact stable.orNull inside

theorem stable_enumType (values : List EnumValue) : P (enumType values) := by
  unfold enumType
  dsimp only
  split
  · exact stable.orNull (stable.literalsOf _)
  · exact stable.literalsOf _

theorem stable_primitiveForm (kind : String) (values : Option (List EnumValue)) :
    P (primitiveForm kind values) := by
  unfold primitiveForm
  repeat' split
  · exact stable_enumType stable _
  · exact stable.scalar (kindScalar_proper kind)
  · exact stable.scalar (kindScalar_proper kind)

section Node

variable (children : ∀ child ∈ schema.children, ∀ type, HasType resolver child type → P type)
include children

omit stable in
theorem members_each (composition : Composition) {types : List TypeExpr}
    (typed : MembersTyped resolver ((schema.members composition).getD []) types) :
    ∀ type ∈ types, P type := by
  intro type present
  obtain ⟨member, proper, memberTyped⟩ := InStep.left_of_right typed present
  exact children member (member_mem_children (List.mem_filter.mp proper).1) type memberTyped

theorem stable_index {index : Option TypeExpr} (opened : IndexTyped resolver schema.additional index) :
    ∀ type ∈ index, P type := by
  intro type held
  generalize given : schema.additional = additional at opened
  cases opened with
  | absent | closed => cases held
  | unrestricted | untyped =>
    obtain rfl := Option.some.inj held
    exact stable_any stable
  | typed _ values =>
    obtain rfl := Option.some.inj held
    exact children _ (values_mem_children given) _ values

variable (object : ∀ fields index, fields.map (·.name) = (schema.properties.getD []).map (·.1) →
  (∀ field ∈ fields, P field.type) → (∀ type ∈ index, P type) → P (.object fields index))
include object

theorem stable_object {properties : List (String × Schema)} {fields : List (Field TypeExpr)}
    {index : Option TypeExpr} (declared : schema.properties = some properties)
    (opened : IndexTyped resolver schema.additional index)
    (typed : List.Forall₂ (FieldTyped resolver schema.required index.isSome) properties fields) :
    P (.object fields index) := by
  have names : properties.map (·.1) = fields.map (·.name) :=
    InStep.map_eq typed fun _ _ field => field.name.symm
  refine object fields index ?_ (fun field present => ?_) (stable_index stable children opened)
  · rw [declared, Option.getD_some, names]
  · obtain ⟨property, member, fieldTyped⟩ := InStep.left_of_right typed present
    exact children _ (property_mem_children declared member) _ fieldTyped.type

theorem stable_map {index : Option TypeExpr} (undeclared : schema.properties = none)
    (opened : IndexTyped resolver schema.additional index) :
    P (objectType schema.additional index none) := by
  unfold objectType
  dsimp only
  split
  · exact stable.emptyObject
  · refine object [] _ (by rw [undeclared]; rfl) (fun _ none => nomatch none) fun type held => ?_
    obtain rfl := Option.some.inj held
    cases given : index with
    | none => exact stable_any stable
    | some type => exact stable_index stable children opened type given

/-- A stable property holds of the type of a node if it holds of the types of the nodes inside, of the name
that a reference stands for, and of objects with the declared names. -/
theorem stable_formed {core : TypeExpr}
    (named : ∀ path name, schema.shape = .reference path → resolver.resolve path = .ok name →
      P (.named name)) (formed : Formed resolver schema core) : P core := by
  cases formed with
  | reference shape resolved => exact named _ _ shape resolved
  | union _ _ members =>
    exact stable_orNullIf stable (stable.unionOf (members_each children _ members)) _
  | intersection _ _ members =>
    have types := members_each children .allOf members
    exact stable_orNullIf stable (stable.intersectionOf types) _
  | extension _ declared members opened typed =>
    refine stable_orNullIf stable (stable.intersectionOf fun type present => ?_) _
    rcases List.mem_append.mp present with member | own
    · exact members_each children .allOf members type member
    · obtain rfl := List.mem_singleton.mp own
      exact stable_object stable children object declared opened typed
  | array _ typed untyped =>
    refine stable.array ?_
    cases given : schema.items with
    | none => exact untyped given ▸ stable_any stable
    | some items => exact children items (items_mem_children given) _ (typed items given)
  | map _ undeclared opened => exact stable_map stable children object undeclared opened
  | object _ declared opened typed =>
    exact stable_object stable children object declared opened typed
  | primitive => exact stable_primitiveForm stable _ _
  | kinds =>
    refine stable.unionOf fun type present => ?_
    obtain ⟨kind, -, rfl⟩ := List.mem_map.mp present
    exact stable.scalar (kindScalar_proper kind)
  | empty => exact stable.emptyObject

end Node
end Stable
end Schema
end TypedClient
