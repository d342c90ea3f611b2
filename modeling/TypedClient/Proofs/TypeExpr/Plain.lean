import TypedClient.Proofs.TypeExpr.Distinct

/-!
Types without the descriptions of their fields. Structural equality is equality of what is left, so
that removing repetitions and descriptions can be done in either order.
-/
namespace TypedClient

section Distinct

variable {α : Type} {same : α → α → Bool} {f : α → α}

theorem addNew_map (blind : ∀ a b, same (f a) (f b) = same a b) (kept : List α) (x : α) :
    addNew same (kept.map f) (f x) = (addNew same kept x).map f := by
  simp only [addNew, List.any_map, Function.comp_def, blind]
  split
  · rfl
  · rw [List.map_append, List.map_singleton]

theorem foldl_addNew_map (blind : ∀ a b, same (f a) (f b) = same a b) (xs kept : List α) :
    (xs.map f).foldl (addNew same) (kept.map f) = (xs.foldl (addNew same) kept).map f := by
  induction xs generalizing kept with
  | nil => rfl
  | cons x xs ih => rw [List.map_cons, List.foldl_cons, addNew_map blind, ih, List.foldl_cons]

theorem distinct_map (blind : ∀ a b, same (f a) (f b) = same a b) (xs : List α) :
    distinct same (xs.map f) = (distinct same xs).map f :=
  foldl_addNew_map blind xs []

end Distinct

namespace TypeExpr

mutual

/-- The type with no field described. -/
def plain : TypeExpr → TypeExpr
  | .scalar kind => .scalar kind
  | .literals values => .literals values
  | .array items => .array items.plain
  | .object fields index => .object (plainFields fields) (plainIndex index)
  | .union members => .union (plainAll members)
  | .intersection members => .intersection (plainAll members)
  | .named name => .named name
  | .nullable inner => .nullable inner.plain
termination_by structural x => x

def plainAll : List TypeExpr → List TypeExpr
  | [] => []
  | type :: rest => type.plain :: plainAll rest
termination_by structural x => x

def plainIndex : Option TypeExpr → Option TypeExpr
  | none => none
  | some type => some type.plain
termination_by structural x => x

def plainFields : List (Field TypeExpr) → List (Field TypeExpr)
  | [] => []
  | ⟨name, type, optional, _⟩ :: rest => ⟨name, type.plain, optional, none⟩ :: plainFields rest
termination_by structural x => x

end

end TypeExpr

def Field.plain (field : Field TypeExpr) : Field TypeExpr :=
  { field with type := field.type.plain, doc := none }

namespace TypeExpr

theorem plainAll_eq (types : List TypeExpr) : plainAll types = types.map plain := by
  induction types with
  | nil => rfl
  | cons type types ih => rw [plainAll, ih, List.map_cons]

theorem plainIndex_eq (index : Option TypeExpr) : plainIndex index = index.map plain := by
  cases index <;> rfl

theorem plainFields_eq (fields : List (Field TypeExpr)) :
    plainFields fields = fields.map Field.plain := by
  induction fields with
  | nil => rfl
  | cons field fields ih => rw [plainFields, ih, List.map_cons, Field.plain]

section Constructors

@[simp] theorem plain_scalar (kind : Scalar) : plain (.scalar kind) = .scalar kind := by rw [plain]

@[simp] theorem plain_literals (values : List String) :
    plain (.literals values) = .literals values := by
  rw [plain]

@[simp] theorem plain_array (items : TypeExpr) : plain (.array items) = .array items.plain := by
  rw [plain]

@[simp] theorem plain_object (fields : List (Field TypeExpr)) (index : Option TypeExpr) :
    plain (.object fields index) = .object (fields.map Field.plain) (index.map plain) := by
  rw [plain, plainFields_eq, plainIndex_eq]

@[simp] theorem plain_union (members : List TypeExpr) :
    plain (.union members) = .union (members.map plain) := by
  rw [plain, plainAll_eq]

@[simp] theorem plain_intersection (members : List TypeExpr) :
    plain (.intersection members) = .intersection (members.map plain) := by
  rw [plain, plainAll_eq]

@[simp] theorem plain_named (name : String) : plain (.named name) = .named name := by rw [plain]

@[simp] theorem plain_nullable (inner : TypeExpr) :
    plain (.nullable inner) = .nullable inner.plain := by
  rw [plain]

end Constructors

/-! ### Equality up to descriptions -/

theorem same_iff_plain {type type' : TypeExpr} :
    same type type' = true ↔ type.plain = type'.plain := by
  induction type generalizing type' with
  | scalar | literals | named => cases type' <;> simp [same]
  | array items ih | nullable inner ih => cases type' <;> simp [same, ih]
  | union members ih | intersection members ih =>
    have each (members' : List TypeExpr) :
        List.Forall₂ (fun a b => same a b = true) members members' ↔
          members.map plain = members'.map plain :=
      InStep.iff_map_eq fun member present _ => ih member present
    cases type' <;> simp [same, sameAll_iff, each]
  | object fields index fieldTypes indexType =>
    cases type' with
    | object fields' index' =>
      have declared : List.Forall₂ FieldsAlike fields fields' ↔
          fields.map Field.plain = fields'.map Field.plain :=
        InStep.iff_map_eq fun field present field' => by
          simp [FieldsAlike, Field.plain, fieldTypes field present]
      have opened : sameIndex index index' = true ↔ index.map plain = index'.map plain := by
        cases index with
        | none => cases index' <;> simp [sameIndex]
        | some type => cases index' <;> simp [sameIndex, indexType type rfl]
      simp only [same, Bool.and_eq_true, sameFields_iff, declared, opened, plain_object,
        object.injEq]
    | _ => simp [same]

theorem plain_plain (type : TypeExpr) : type.plain.plain = type.plain := by
  induction type with
  | scalar | literals | named => simp
  | array items ih | nullable inner ih => simp [ih]
  | union members ih | intersection members ih => simpa using ih
  | object fields index fieldTypes indexType =>
    have opened : (index.map plain).map plain = index.map plain := by
      cases index with
      | none => rfl
      | some type => simp [indexType type rfl]
    simpa [opened, Field.plain] using fieldTypes

@[simp] theorem same_plain (type type' : TypeExpr) : same type.plain type'.plain = same type type' := by
  rw [Bool.eq_iff_iff, same_iff_plain, same_iff_plain, plain_plain, plain_plain]

/-! ### Types made from types -/

theorem collapse_plain {wrap : List TypeExpr → TypeExpr}
    (wrapped : ∀ types, (wrap types).plain = wrap (types.map plain)) (types : List TypeExpr) :
    collapse wrap (types.map plain) = (collapse wrap types).plain := by
  match types with
  | [] => exact (plain_scalar .any).symm
  | [_] => rfl
  | first :: second :: rest => exact (wrapped (first :: second :: rest)).symm

theorem unionMembers_plain (type : TypeExpr) :
    unionMembers type.plain = (unionMembers type).map plain := by
  cases type <;> simp [unionMembers]

theorem unionOf_plain (types : List TypeExpr) :
    unionOf (types.map plain) = (unionOf types).plain := by
  have members : (types.map plain).flatMap unionMembers = (types.flatMap unionMembers).map plain := by
    simp only [List.flatMap_map, List.map_flatMap, unionMembers_plain]
  rw [unionOf, members, distinct_map same_plain, collapse_plain plain_union, unionOf]

theorem intersectionOf_plain (types : List TypeExpr) :
    intersectionOf (types.map plain) = (intersectionOf types).plain := by
  rw [intersectionOf, distinct_map same_plain, collapse_plain plain_intersection, intersectionOf]

theorem orNull_plain (type : TypeExpr) : type.plain.orNull = type.orNull.plain := by
  cases type <;> simp [orNull]

end TypeExpr
end TypedClient
