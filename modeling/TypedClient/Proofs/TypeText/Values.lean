import TypedClient.Number.Binary64
import TypedClient.Proofs.TypeExpr.Plain
import TypedClient.Proofs.TypeText.Tree
import Mathlib.Data.Set.Defs

/-!
What the trees of types say about the values of a running program, among them the value of an absent
property. A union admits what its branches admit, so leaving out repetitions and nested unions changes
nothing: types that are the same have one tree.
-/
namespace TypedClient
namespace TypeText

inductive Value where
  /-- What is read where nothing is held. -/
  | undefined
  | null
  | flag (value : Bool)
  | number (value : Binary64)
  | text (value : String)
  | array (items : List Value)
  | object (properties : List (String × Value))

inductive Predefined.Admits : Predefined → Value → Prop where
  | number (value : Binary64) : Admits .number (.number value)
  | string (value : String) : Admits .string (.text value)
  | boolean (value : Bool) : Admits .boolean (.flag value)
  | any (value : Value) : Admits .any value
  | void : Admits .void .undefined
  | unknown (value : Value) : Admits .unknown value
  | null : Admits .null .null

variable (meaning : String → Set Value)

namespace Tree

/-- The values of a type under strict null checks, where each name stands for a set of values. -/
inductive Admits : Tree → Value → Prop where
  | predefined {type : Predefined} {value : Value} (known : type.Admits value) :
      Admits (.predefined type) value
  | name {name : String} {value : Value} (present : value ∈ meaning name) : Admits (.name name) value
  | literal (text : String) : Admits (.literal text) (.text text)
  | array {type : Tree} {items : List Value} (each : ∀ item ∈ items, Admits type item) :
      Admits (.array type) (.array items)
  /-- A type without members asks for no properties, and null and `undefined` can have none. -/
  | memberless {value : Value} (notUndefined : value ≠ .undefined) (notNull : value ≠ .null) :
      Admits (.object []) value
  | object {members : List (Head × Tree)} {properties : List (String × Value)}
      (required : ∀ name type, (.property name false, type) ∈ members →
        ∃ value, (name, value) ∈ properties)
      (declared : ∀ name optional type, (.property name optional, type) ∈ members →
        ∀ value, (name, value) ∈ properties → (optional = true → value ≠ .undefined) →
          Admits type value)
      (indexed : ∀ type, (.index, type) ∈ members → ∀ name value, (name, value) ∈ properties →
        (∀ optional type, (.property name optional, type) ∉ members) → Admits type value) :
      Admits (.object members) (.object properties)
  | union {branches : List Tree} {branch : Tree} {value : Value} (present : branch ∈ branches)
      (admits : Admits branch value) : Admits (.union branches) value
  | intersection {factors : List Tree} {value : Value}
      (each : ∀ factor ∈ factors, Admits factor value) : Admits (.intersection factors) value

/-- The values that may be read from a property of the type. -/
def AdmitsProperty (type : Tree) (optional : Bool) (value : Value) : Prop :=
  optional = true ∧ value = .undefined ∨ type.Admits meaning value

/-- Every value that may be read from a declared property is one of the index signature, as the
language demands of an object type. -/
def SignatureFits : Tree → Prop
  | .object members => ∀ signature, (.index, signature) ∈ members →
      ∀ name optional type, (.property name optional, type) ∈ members →
        ∀ value, AdmitsProperty meaning type optional value → signature.Admits meaning value
  | _ => True

variable {meaning} {value : Value}

theorem admits_ofBranches {branches : List Tree} :
    Admits meaning (.ofBranches branches) value ↔ ∃ branch ∈ branches, Admits meaning branch value := by
  have union : Admits meaning (.union branches) value ↔
      ∃ branch ∈ branches, Admits meaning branch value := by
    constructor
    · intro admits
      cases admits with
      | union present admits => exact ⟨_, present, admits⟩
    · rintro ⟨branch, present, admits⟩
      exact .union present admits
  match branches with
  | [branch] => simp [ofBranches]
  | [] | _ :: _ :: _ => exact union

end Tree
end TypeText

namespace TypeExpr
open TypeText

/-! ### Descriptions -/

theorem isTop_plain (type : TypeExpr) : type.plain.isTop = type.isTop := by
  cases type <;> simp [isTop]

theorem indexType_plain (fields : List (Field TypeExpr)) (index : TypeExpr) :
    indexType (fields.map Field.plain) index.plain = (indexType fields index).plain := by
  have types : index.plain :: (fields.map Field.plain).map (·.type) =
      (index :: fields.map (·.type)).map plain := by
    simp [Field.plain]
  unfold indexType
  rw [List.isEmpty_map, isTop_plain, types, unionOf_plain]
  split <;> rfl

theorem entries_plain (fields : List (Field TypeExpr)) (index : Option TypeExpr) :
    entries (fields.map Field.plain) (index.map plain) =
      (entries fields index).map fun entry => (entry.1, entry.2.plain) := by
  cases index with
  | none => simp [entries, Field.plain]
  | some type => simp [entries, indexType_plain, Field.plain]

theorem branches_plain (type : TypeExpr) : type.plain.branches = type.branches := by
  induction type using induct_parts with
  | step type parts =>
    have trees : ∀ part ∈ type.parts, part.plain.tree = part.tree := fun part member =>
      congrArg Tree.ofBranches (parts part member)
    cases type with
    | scalar | literals | named => simp
    | array items =>
      have own := trees items (List.mem_singleton_self _)
      simpa [branches, tree] using own
    | nullable inner => simp [branches, parts inner (List.mem_singleton_self _)]
    | union members =>
      rw [plain_union, branches_union, branches_union, List.flatMap_map]
      exact List.flatMap_congr parts
    | intersection members =>
      rw [plain_intersection, branches_intersection, branches_intersection, List.map_map]
      exact congrArg (fun factors => [Tree.intersection factors]) (List.map_congr_left trees)
    | object fields index =>
      -- Widening an index and removing descriptions go in either order: the parts stay in step.
      rw [plain_object, branches_object, branches_object, entries_plain, List.map_map]
      refine congrArg (fun members => [Tree.object members]) (List.map_congr_left fun entry listed => ?_)
      exact congrArg (Prod.mk entry.1) (trees entry.2 (List.mem_map_of_mem listed))

theorem tree_of_same {type other : TypeExpr} (equal : same type other = true) :
    type.tree = other.tree := by
  rw [tree, tree, ← branches_plain type, ← branches_plain other, same_iff_plain.mp equal]

/-! ### Unions -/

variable {meaning : String → Set Value} {value : Value}

theorem admits_union_iff {members : List TypeExpr} :
    (union members).tree.Admits meaning value ↔ ∃ member ∈ members, member.tree.Admits meaning value := by
  simp only [tree, Tree.admits_ofBranches, branches_union, List.mem_flatMap]
  constructor
  · rintro ⟨branch, ⟨member, present, inside⟩, admits⟩
    exact ⟨member, present, branch, inside, admits⟩
  · rintro ⟨member, present, branch, inside, admits⟩
    exact ⟨branch, ⟨member, present, inside⟩, admits⟩

theorem admits_unionMembers_iff {type : TypeExpr} :
    (∃ member ∈ type.unionMembers, member.tree.Admits meaning value) ↔ type.tree.Admits meaning value := by
  cases type with
  | union members => exact admits_union_iff.symm
  | _ => simp [unionMembers]

theorem tree_scalar (kind : Scalar) : (scalar kind).tree = .predefined kind.predefined := by
  rw [tree, branches]
  rfl

theorem admits_any (value : Value) : any.tree.Admits meaning value := by
  rw [tree_scalar]
  exact .predefined (.any value)

theorem admits_collapse_iff {members : List TypeExpr} :
    (collapse .union members).tree.Admits meaning value ↔
      members = [] ∨ ∃ member ∈ members, member.tree.Admits meaning value := by
  match members with
  | [] => exact iff_of_true (admits_any value) (.inl rfl)
  | [member] => simp [collapse]
  | first :: second :: rest =>
    have several : (collapse .union (first :: second :: rest)).tree.Admits meaning value ↔
        ∃ member ∈ first :: second :: rest, member.tree.Admits meaning value := admits_union_iff
    simpa using several

/-- Flattening and leaving out repetitions loses no value. A union of which nothing is left is `any`. -/
theorem admits_unionOf_iff {types : List TypeExpr} :
    (unionOf types).tree.Admits meaning value ↔
      unionOf types = any ∨ ∃ type ∈ types, type.tree.Admits meaning value := by
  constructor
  · intro admits
    rcases admits_collapse_iff.mp admits with nothing | ⟨member, kept, admits⟩
    · exact .inl (by rw [unionOf, nothing, collapse])
    · obtain ⟨type, present, inside⟩ := List.mem_flatMap.mp (mem_of_mem_distinct kept)
      exact .inr ⟨type, present, admits_unionMembers_iff.mp ⟨member, inside, admits⟩⟩
  · rintro (everything | ⟨type, present, admits⟩)
    · rw [everything]
      exact admits_any value
    · obtain ⟨member, inside, admits⟩ := admits_unionMembers_iff.mpr admits
      -- The member itself may be left out, but not the first of those that are the same.
      obtain ⟨kept, stays, equal⟩ := mem_distinct_of_mem (List.mem_flatMap.mpr ⟨type, present, inside⟩)
      exact admits_collapse_iff.mpr (.inr ⟨kept, stays, tree_of_same equal ▸ admits⟩)

end TypeExpr
end TypedClient
