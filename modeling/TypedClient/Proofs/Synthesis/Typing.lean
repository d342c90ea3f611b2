import TypedClient.Synthesis.Schema
import TypedClient.Proofs.Outcome
import TypedClient.Proofs.Schema.Nodes
import TypedClient.Proofs.InStep

/-!
What synthesis can make of a node, shape by shape, in terms of the types of the nodes inside it.
`HasType.formed` is the only place where the recursion of synthesis is opened.
-/
namespace TypedClient.Schema

def kindScalar (kind : String) : Scalar :=
  if ["integer", "long", "float", "double", "number"].contains kind then .number
  else if kind == "boolean" then .boolean
  else if ["string", "byte", "binary", "date", "dateTime", "date-time", "password"].contains kind then
    .string
  else .any

def primitiveForm (kind : String) (values : Option (List EnumValue)) : TypeExpr :=
  match values with
  | some values => if kindScalar kind = .string then enumType values else .scalar (kindScalar kind)
  | none => .scalar (kindScalar kind)

theorem kindType_outcome (place kind : String) :
    (kindType place kind).outcome = .ok (.scalar (kindScalar kind)) := by
  unfold kindType kindScalar
  split
  · rfl
  split
  · rfl
  split
  · rfl
  split <;> rfl

theorem kindTypes_outcome (place : String) (kinds : List String) :
    (kindTypes place kinds).outcome = .ok (kinds.map fun kind => .scalar (kindScalar kind)) := by
  induction kinds with
  | nil => rfl
  | cons kind kinds ih =>
    simp only [kindTypes, Traced.outcome_bind, kindType_outcome, ih, Except.bind,
      Traced.outcome_pure, List.map_cons]

theorem primitiveType_outcome (place kind : String) (values : Option (List EnumValue)) :
    (primitiveType place kind values).outcome = .ok (primitiveForm kind values) := by
  unfold primitiveType primitiveForm
  rw [Traced.outcome_bind, kindType_outcome]
  cases values <;> simp [Except.bind, TypeExpr.same]

/-- Some run of synthesis gives the node this type. -/
def HasType (resolver : Resolver) (schema : Schema) (type : TypeExpr) : Prop :=
  ∃ place, (schema.synthesize resolver place).outcome = .ok type

/-- The type of a node that may be absent, with a type that stands in for it. -/
inductive TypedOr (resolver : Resolver) (fallback : TypeExpr) : Option Schema → TypeExpr → Prop where
  | declared {schema : Schema} {type : TypeExpr} (typed : HasType resolver schema type) :
      TypedOr resolver fallback (some schema) type
  | absent : TypedOr resolver fallback none fallback

theorem TypedOr.of_some {resolver : Resolver} {fallback type : TypeExpr} {slot : Option Schema}
    {node : Schema} (typed : TypedOr resolver fallback slot type) (declared : slot = some node) :
    HasType resolver node type := by
  cases typed with
  | declared typed =>
    obtain rfl := Option.some.inj declared
    exact typed
  | absent => cases declared

/-- The types of the members that are not null types. -/
def MembersTyped (resolver : Resolver) (members : List Schema) (types : List TypeExpr) : Prop :=
  List.Forall₂ (HasType resolver) (members.filter fun member => !member.isNullType) types

structure FieldTyped (resolver : Resolver) (required : List String) (opened : Bool)
    (entry : String × Schema) (field : Field TypeExpr) : Prop where
  name : field.name = entry.1
  type : HasType resolver entry.2 field.type
  optional : field.optional = (opened || !required.contains entry.1)
  doc : field.doc = entry.2.description

inductive IndexTyped (resolver : Resolver) : Option (Additional Schema) → Option TypeExpr → Prop where
  | absent : IndexTyped resolver none none
  | closed : IndexTyped resolver (some (.flag false)) none
  | unrestricted : IndexTyped resolver (some (.flag true)) (some .any)
  | untyped {schema : Schema} (shape : schema.shape = .empty) :
      IndexTyped resolver (some (.values schema)) (some .any)
  | typed {schema : Schema} {type : TypeExpr} (shape : schema.shape ≠ .empty)
      (values : HasType resolver schema type) : IndexTyped resolver (some (.values schema)) (some type)

/-- The type of a node before its null flag, by its shape. -/
inductive Formed (resolver : Resolver) (schema : Schema) : TypeExpr → Prop where
  | reference {target name : String} (shape : schema.shape = .reference target)
      (resolved : resolver.resolve target = .ok name) : Formed resolver schema (.named name)
  | union {composition : Composition} {types : List TypeExpr}
      (shape : schema.shape = .composite composition) (alternative : composition ≠ .allOf)
      (members : MembersTyped resolver ((schema.members composition).getD []) types) :
      Formed resolver schema
        (orNullIf (admitsNull (schema.members composition)) (.unionOf types))
  | intersection {types : List TypeExpr} (shape : schema.shape = .composite .allOf)
      (undeclared : schema.properties = none)
      (members : MembersTyped resolver (schema.allOf.getD []) types) :
      Formed resolver schema (orNullIf (admitsNull schema.allOf) (.intersectionOf types))
  | extension {types : List TypeExpr} {properties : List (String × Schema)}
      {fields : List (Field TypeExpr)} {index : Option TypeExpr}
      (shape : schema.shape = .composite .allOf) (declared : schema.properties = some properties)
      (members : MembersTyped resolver (schema.allOf.getD []) types)
      (opened : IndexTyped resolver schema.additional index)
      (typed : List.Forall₂ (FieldTyped resolver schema.required index.isSome) properties fields) :
      Formed resolver schema
        (orNullIf (admitsNull schema.allOf) (.intersectionOf (types ++ [.object fields index])))
  | array {type : TypeExpr} (shape : schema.shape = .array)
      (typed : ∀ items, schema.items = some items → HasType resolver items type)
      (untyped : schema.items = none → type = .any) : Formed resolver schema (.array type)
  | map {index : Option TypeExpr} (shape : schema.shape = .object)
      (undeclared : schema.properties = none) (opened : IndexTyped resolver schema.additional index) :
      Formed resolver schema (objectType schema.additional index none)
  | object {properties : List (String × Schema)} {fields : List (Field TypeExpr)}
      {index : Option TypeExpr} (shape : schema.shape = .object)
      (declared : schema.properties = some properties)
      (opened : IndexTyped resolver schema.additional index)
      (typed : List.Forall₂ (FieldTyped resolver schema.required index.isSome) properties fields) :
      Formed resolver schema (.object fields index)
  | primitive {kind : String} (shape : schema.shape = .primitive kind) :
      Formed resolver schema (primitiveForm kind schema.enum)
  | kinds (shape : schema.shape = .multiType) :
      Formed resolver schema
        (.unionOf (schema.nonNullTypes.map fun kind => .scalar (kindScalar kind)))
  | empty (shape : schema.shape = .empty) : Formed resolver schema (.object [] none)

section Runs

variable {resolver : Resolver} {place : String}

theorem synthesizeFrom_typed {members : List Schema} {types : List TypeExpr} {position : Nat}
    (made : (synthesizeFrom resolver place position members).outcome = .ok types) :
    MembersTyped resolver members types := by
  unfold MembersTyped
  induction members generalizing position types with
  | nil =>
    rw [synthesizeFrom] at made
    obtain rfl := Traced.pure_ok made
    exact .nil
  | cons member rest ih =>
    rw [synthesizeFrom] at made
    split at made
    · rename_i null
      simpa [null] using ih made
    · rename_i proper
      obtain ⟨type, first, made⟩ := Traced.bind_ok made
      obtain ⟨later, others, made⟩ := Traced.bind_ok made
      obtain rfl := Traced.pure_ok made
      simpa [proper] using ⟨⟨_, first⟩, ih others⟩

theorem synthesizeMembers_typed {members : Option (List Schema)} {types : List TypeExpr}
    (made : (synthesizeMembers resolver place members).outcome = .ok types) :
    MembersTyped resolver (members.getD []) types := by
  cases members with
  | none =>
    rw [synthesizeMembers] at made
    obtain rfl := Traced.pure_ok made
    exact .nil
  | some members =>
    rw [synthesizeMembers] at made
    exact synthesizeFrom_typed made

theorem synthesizeIndex_typed {additional : Option (Additional Schema)} {index : Option TypeExpr}
    (made : (synthesizeIndex resolver place additional).outcome = .ok index) :
    IndexTyped resolver additional index := by
  match additional with
  | none =>
    obtain rfl := Traced.pure_ok made
    exact .absent
  | some (.flag false) =>
    obtain rfl := Traced.pure_ok made
    exact .closed
  | some (.flag true) =>
    obtain rfl := Traced.pure_ok made
    exact .unrestricted
  | some (.values schema) =>
    rw [synthesizeIndex] at made
    split at made
    · rename_i shape
      obtain rfl := Traced.pure_ok made
      exact .untyped shape
    · rename_i shape
      obtain ⟨type, values, made⟩ := Traced.bind_ok made
      obtain rfl := Traced.pure_ok made
      exact .typed shape ⟨_, values⟩

theorem synthesizeFields_typed {required : List String} {opened : Bool}
    {properties : List (String × Schema)} {fields : List (Field TypeExpr)}
    (made : (synthesizeFields resolver place required opened properties).outcome = .ok fields) :
    List.Forall₂ (FieldTyped resolver required opened) properties fields := by
  induction properties generalizing fields with
  | nil =>
    obtain rfl := Traced.pure_ok made
    exact .nil
  | cons entry rest ih =>
    obtain ⟨name, property⟩ := entry
    rw [synthesizeFields] at made
    obtain ⟨type, first, made⟩ := Traced.bind_ok made
    obtain ⟨later, others, made⟩ := Traced.bind_ok made
    obtain rfl := Traced.pure_ok made
    exact .cons ⟨rfl, ⟨_, first⟩, rfl, rfl⟩ (ih others)

theorem synthesizeProperties_typed {required : List String} {opened : Bool}
    {properties : List (String × Schema)} {fields : Option (List (Field TypeExpr))}
    (made : (synthesizeProperties resolver place required opened (some properties)).outcome =
      .ok fields) :
    ∃ typed, fields = some typed ∧
      List.Forall₂ (FieldTyped resolver required opened) properties typed := by
  rw [synthesizeProperties] at made
  obtain ⟨typed, each, made⟩ := Traced.bind_ok made
  exact ⟨typed, Traced.pure_ok made, synthesizeFields_typed each⟩

end Runs

/-- A type that synthesis gives to a node is formed by the shape of the node. -/
theorem HasType.formed {resolver : Resolver} {schema : Schema} {type : TypeExpr}
    (typed : HasType resolver schema type) :
    ∃ core, Formed resolver schema core ∧ type = orNullIf schema.isNullable core := by
  obtain ⟨place, made⟩ := typed
  obtain ⟨facets, properties, items, allOf, oneOf, anyOf, additional⟩ := schema
  rw [synthesize] at made
  split at made
  case h_1 target shape =>
    obtain ⟨name, resolved, made⟩ := Traced.bind_ok made
    exact ⟨_, .reference shape resolved, Traced.pure_ok made⟩
  case h_2 shape =>
    obtain ⟨types, members, made⟩ := Traced.bind_ok made
    have members := synthesizeMembers_typed members
    cases properties with
    | none => exact ⟨_, .intersection shape rfl members, Traced.pure_ok made⟩
    | some properties =>
      obtain ⟨index, opened, made⟩ := Traced.bind_ok made
      obtain ⟨fields, own, made⟩ := Traced.bind_ok made
      obtain ⟨fields, rfl, each⟩ := synthesizeProperties_typed own
      exact ⟨_, .extension shape rfl members (synthesizeIndex_typed opened) each,
        Traced.pure_ok made⟩
  case h_3 shape =>
    obtain ⟨types, members, made⟩ := Traced.bind_ok made
    exact ⟨_, .union shape (by decide) (synthesizeMembers_typed members), Traced.pure_ok made⟩
  case h_4 shape =>
    obtain ⟨types, members, made⟩ := Traced.bind_ok made
    exact ⟨_, .union shape (by decide) (synthesizeMembers_typed members), Traced.pure_ok made⟩
  case h_5 shape =>
    obtain ⟨type, inside, made⟩ := Traced.bind_ok made
    refine ⟨_, .array shape (fun node given => ?_) (fun absent => ?_), Traced.pure_ok made⟩
    · cases (show items = some node from given)
      exact ⟨_, inside⟩
    · cases (show items = none from absent)
      exact Traced.pure_ok inside
  case h_6 shape =>
    obtain ⟨index, opened, made⟩ := Traced.bind_ok made
    obtain ⟨fields, own, made⟩ := Traced.bind_ok made
    have opened := synthesizeIndex_typed opened
    cases properties with
    | none =>
      obtain rfl := Traced.pure_ok own
      exact ⟨_, .map shape rfl opened, Traced.pure_ok made⟩
    | some properties =>
      obtain ⟨fields, rfl, each⟩ := synthesizeProperties_typed own
      exact ⟨_, .object shape rfl opened each, Traced.pure_ok made⟩
  case h_7 kind shape =>
    obtain ⟨type, inside, made⟩ := Traced.bind_ok made
    rw [primitiveType_outcome] at inside
    obtain rfl := Except.ok.inj inside
    exact ⟨_, .primitive shape, Traced.pure_ok made⟩
  case h_8 shape =>
    obtain ⟨types, inside, made⟩ := Traced.bind_ok made
    rw [kindTypes_outcome] at inside
    obtain rfl := Except.ok.inj inside
    exact ⟨_, .kinds shape, Traced.pure_ok made⟩
  case h_9 shape => exact ⟨_, .empty shape, Traced.pure_ok made⟩

theorem shape_of_ref {schema : Schema} {target : String} (given : schema.ref = some target) :
    schema.shape = .reference target := by
  simp [shape, given]

theorem ref_of_shape {schema : Schema} {target : String} (shape : schema.shape = .reference target) :
    schema.ref = some target := by
  unfold Schema.shape untypedShape at shape
  split at shape
  · rename_i given
    exact given.trans (congrArg some (Shape.reference.inj shape))
  · (repeat' split at shape) <;> cases shape

theorem HasType.reference {resolver : Resolver} {schema : Schema} {target name : String}
    (given : schema.ref = some target) (resolved : resolver.resolve target = .ok name) :
    HasType resolver schema (.named name) := by
  have shape := shape_of_ref given
  have plain : schema.isNullable = false := by simp [Facets.isNullable, given]
  obtain ⟨facets, properties, items, allOf, oneOf, anyOf, additional⟩ := schema
  refine ⟨"", ?_⟩
  rw [synthesize]
  simp [shape, resolved, plain, orNullIf]

end TypedClient.Schema
