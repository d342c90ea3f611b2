import TypedClient.Proofs.TypeExpr.Distinct
import TypedClient.Proofs.TypeExpr.Subterms
import TypedClient.Proofs.TypeText.Grammar
import TypedClient.Script.Types

/-!
The tree of a type: descriptions are left out, an index type is widened, null stands as one more branch,
and unions inside unions are flattened. The recursion goes through the widened index type, which is
smaller than its object since each field loses its name.
-/
namespace TypedClient

open TypeText

def Scalar.predefined : Scalar → Predefined
  | .number => .number
  | .string => .string
  | .boolean => .boolean
  | .any => .any
  | .void => .void
  | .unknown => .unknown

namespace TypeExpr

/-! ### Sizes -/

theorem sizeOf_append (types others : List TypeExpr) :
    sizeOf (types ++ others) + 1 = sizeOf types + sizeOf others := by
  induction types with
  | nil => simp [Nat.add_comm]
  | cons type types ih =>
    simp only [List.cons_append, List.cons.sizeOf_spec]
    omega

theorem sizeOf_sublist {types others : List TypeExpr} (sublist : types.Sublist others) :
    sizeOf types ≤ sizeOf others := by
  induction sublist with
  | slnil => exact Nat.le_refl _
  | cons type _ ih =>
    simp only [List.cons.sizeOf_spec]
    omega
  | cons_cons type _ ih =>
    simp only [List.cons.sizeOf_spec]
    omega

theorem sizeOf_flatMap_unionMembers (types : List TypeExpr) :
    sizeOf (types.flatMap unionMembers) ≤ sizeOf types := by
  induction types with
  | nil => exact Nat.le_refl _
  | cons type types ih =>
    have split := sizeOf_append type.unionMembers (types.flatMap unionMembers)
    have members : sizeOf type.unionMembers ≤ 2 + sizeOf type := by
      cases type with
      | union members =>
        rw [unionMembers, union.sizeOf_spec]
        omega
      | _ =>
        simp only [unionMembers, List.cons.sizeOf_spec, List.nil.sizeOf_spec]
        omega
    rw [List.flatMap_cons, List.cons.sizeOf_spec]
    omega

theorem sizeOf_unionOf (types : List TypeExpr) : sizeOf (unionOf types) ≤ 1 + sizeOf types := by
  have kept : sizeOf (distinct same (types.flatMap unionMembers)) ≤ _ :=
    sizeOf_sublist (distinct_sublist _)
  have flat := sizeOf_flatMap_unionMembers types
  unfold unionOf
  generalize distinct same (types.flatMap unionMembers) = members at kept
  match members with
  | [] =>
    simp [collapse] at kept ⊢
    omega
  | [member] =>
    simp [collapse] at kept ⊢
    omega
  | _ :: _ :: _ =>
    simp [collapse] at kept ⊢
    omega

theorem sizeOf_fieldTypes (fields : List (Field TypeExpr)) :
    sizeOf (fields.map (·.type)) + fields.length ≤ sizeOf fields := by
  induction fields with
  | nil => simp
  | cons field fields ih =>
    have below := sizeOf_field_type field
    simp only [List.map_cons, List.length_cons, List.cons.sizeOf_spec]
    omega

theorem sizeOf_indexType (fields : List (Field TypeExpr)) (index : TypeExpr) :
    sizeOf (indexType fields index) < sizeOf (object fields (some index)) := by
  unfold indexType
  split
  · simp
    omega
  · rename_i widened
    have union := sizeOf_unionOf (index :: fields.map (·.type))
    have types := sizeOf_fieldTypes fields
    have some : 0 < fields.length := by
      cases fields with
      | nil => simp at widened
      | cons field rest => simp
    simp only [List.cons.sizeOf_spec, object.sizeOf_spec, Option.some.sizeOf_spec] at union ⊢
    omega

/-! ### Parts in writing -/

def entries (fields : List (Field TypeExpr)) (index : Option TypeExpr) : List (Head × TypeExpr) :=
  (fields.map fun field => (.property field.name field.optional, field.type)) ++
    index.toList.map fun type => (.index, indexType fields type)

/-- The expressions that are written directly inside. -/
def parts : TypeExpr → List TypeExpr
  | .object fields index => (entries fields index).map (·.2)
  | type => type.children

theorem sizeOf_part {part type : TypeExpr} (member : part ∈ type.parts) :
    sizeOf part < sizeOf type := by
  cases type with
  | object fields index =>
    simp only [parts, entries, List.map_append, List.map_map, List.mem_append, List.mem_map,
      Function.comp_apply, Option.mem_toList] at member
    rcases member with ⟨field, present, rfl⟩ | ⟨type, rfl, rfl⟩
    · exact sizeOf_child (List.mem_append_left _ (List.mem_map_of_mem present))
    · exact sizeOf_indexType fields type
  | _ => exact sizeOf_child member

theorem sizeOf_entry {fields : List (Field TypeExpr)} {index : Option TypeExpr}
    {entry : Head × TypeExpr} (member : entry ∈ entries fields index) :
    sizeOf entry.2 < 1 + sizeOf fields + sizeOf index := by
  have part : entry.2 ∈ (object fields index).parts := List.mem_map_of_mem member
  simpa using sizeOf_part part

theorem induct_parts {motive : TypeExpr → Prop}
    (step : ∀ type, (∀ part ∈ type.parts, motive part) → motive type) (type : TypeExpr) :
    motive type :=
  step type fun part member =>
    have := sizeOf_part member
    induct_parts step part
termination_by sizeOf type

/-! ### Trees -/

def branches (type : TypeExpr) : List Tree :=
  match type with
  | .scalar kind => [.predefined kind.predefined]
  | .literals values => if values.isEmpty then [.predefined .never] else values.map .literal
  | .array items => [.array (.ofBranches (branches items))]
  | .object fields index =>
    [.object ((entries fields index).attach.map fun (entry : {entry // entry ∈ entries fields index}) =>
      have := sizeOf_entry entry.2
      (entry.1.1, .ofBranches (branches entry.1.2)))]
  | .union members => members.attach.flatMap fun (member : {member // member ∈ members}) =>
      have := List.sizeOf_lt_of_mem member.2
      branches member.1
  | .intersection members =>
    [.intersection (members.attach.map fun (member : {member // member ∈ members}) =>
      have := List.sizeOf_lt_of_mem member.2
      .ofBranches (branches member.1))]
  | .named name => [.name name]
  | .nullable inner => branches inner ++ [.predefined .null]
termination_by sizeOf type

def tree (type : TypeExpr) : Tree :=
  .ofBranches type.branches

theorem branches_object (fields : List (Field TypeExpr)) (index : Option TypeExpr) :
    (object fields index).branches =
      [.object ((entries fields index).map fun entry => (entry.1, entry.2.tree))] := by
  rw [branches]
  exact congrArg (fun members => [Tree.object members])
    (List.attach_map_val (f := fun entry : Head × TypeExpr => (entry.1, entry.2.tree)))

theorem branches_union (members : List TypeExpr) :
    (union members).branches = members.flatMap branches := by
  rw [branches]
  simp

theorem branches_intersection (members : List TypeExpr) :
    (intersection members).branches = [.intersection (members.map tree)] := by
  rw [branches]
  simp [tree]

end TypeExpr
end TypedClient
