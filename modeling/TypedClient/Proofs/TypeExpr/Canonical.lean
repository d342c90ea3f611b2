import TypedClient.Proofs.TypeExpr.Distinct
import TypedClient.Script.Types

/-!
Canonical type expressions: nothing is repeated, nothing is wrapped twice, and no union stands directly
in a union. Every way of building a type from canonical parts gives a canonical type. Unions are
flattened by one level only, which is enough since a canonical union holds no union.
-/
namespace TypedClient

section Unrepeated

variable {α : Type} {same : α → α → Bool}

/-- No two elements are the same, whichever of them is asked. -/
def Unrepeated (same : α → α → Bool) (xs : List α) : Prop :=
  xs.Pairwise fun x y => same x y = false ∧ same y x = false

theorem addNew_unrepeated (comm : ∀ x y, same x y = same y x) {kept : List α} (x : α)
    (unrepeated : Unrepeated same kept) : Unrepeated same (addNew same kept x) := by
  unfold addNew
  split
  · exact unrepeated
  · rename_i fresh
    refine List.pairwise_append.mpr ⟨unrepeated, List.pairwise_singleton _ _, ?_⟩
    intro held member last present
    obtain rfl := List.mem_singleton.mp present
    have other : same held last = false := by
      refine Bool.eq_false_iff.mpr fun equal => fresh ?_
      exact List.any_eq_true.mpr ⟨held, member, equal⟩
    exact ⟨other, (comm last held).trans other⟩

theorem distinct_unrepeated (comm : ∀ x y, same x y = same y x) (xs : List α) :
    Unrepeated same (distinct same xs) :=
  List.foldlRecOn (motive := Unrepeated same) xs _ List.Pairwise.nil
    fun _ unrepeated x _ => addNew_unrepeated comm x unrepeated

end Unrepeated

namespace TypeExpr

theorem same_of_same {type other : TypeExpr} (equal : same type other = true) :
    same other type = true := by
  induction type generalizing other with
  | scalar | literals | named =>
    cases other <;> simp [same] at equal
    simp [same, equal]
  | array items ih | nullable inner ih =>
    cases other <;> simp only [same, Bool.false_eq_true] at equal
    exact ih equal
  | union members ih | intersection members ih =>
    cases other <;> simp only [same, Bool.false_eq_true] at equal
    simp only [same, sameAll_iff] at equal ⊢
    exact InStep.flip_of equal fun member present _ => ih member present
  | object fields index fieldTypes indexType =>
    cases other <;> simp only [same, Bool.false_eq_true, Bool.and_eq_true] at equal
    rename_i fields' index'
    have alike : List.Forall₂ FieldsAlike fields' fields := by
      refine InStep.flip_of (sameFields_iff.mp equal.1) fun field present other alike => ?_
      obtain ⟨name, types, optional⟩ := alike
      exact ⟨name.symm, fieldTypes field present types, optional.symm⟩
    have opened : sameIndex index' index = true := by
      cases index with
      | none => cases index' with
        | none => rfl
        | some type' => cases equal.2
      | some type => cases index' with
        | none => cases equal.2
        | some type' => exact indexType type rfl equal.2
    simp only [same, sameFields_iff.mpr alike, opened, Bool.and_self]

theorem same_comm (type other : TypeExpr) : same type other = same other type :=
  Bool.eq_iff_iff.mpr ⟨same_of_same, same_of_same⟩

/-! ### Canonical expressions -/

/-- What a canonical expression satisfies at its outermost level. -/
def Normal : TypeExpr → Prop
  | .union members =>
    2 ≤ members.length ∧ Unrepeated same members ∧ ∀ member ∈ members, ∀ inner, member ≠ .union inner
  | .intersection members => 2 ≤ members.length ∧ Unrepeated same members
  | .nullable inner => ∀ deeper, inner ≠ .nullable deeper
  | .literals values => values.Nodup
  | .object fields _ => (fields.map (·.name)).Nodup
  | .scalar _ | .array _ | .named _ => True

/-- Normal at every depth. -/
def Canonical (type : TypeExpr) : Prop :=
  ∀ part ∈ type.subterms, part.Normal

theorem canonical_iff {type : TypeExpr} :
    type.Canonical ↔ type.Normal ∧ ∀ part ∈ type.children, part.Canonical := by
  constructor
  · intro canonical
    refine ⟨canonical type (mem_subterms.mpr (.inl rfl)), fun child member part inside => ?_⟩
    exact canonical part (mem_subterms.mpr (.inr ⟨child, member, inside⟩))
  · rintro ⟨normal, children⟩ part inside
    rcases mem_subterms.mp inside with rfl | ⟨child, member, inside⟩
    · exact normal
    · exact children child member part inside

theorem Canonical.subterm {part type : TypeExpr} (canonical : type.Canonical)
    (inside : part ∈ type.subterms) : part.Canonical := by
  induction type using induct_children with
  | step type children =>
    rcases mem_subterms.mp inside with rfl | ⟨child, member, inside⟩
    · exact canonical
    · exact children child member ((canonical_iff.mp canonical).2 child member) inside

@[simp] theorem canonical_scalar (kind : Scalar) : (scalar kind).Canonical := by
  exact canonical_iff.mpr ⟨trivial, fun part member => nomatch member⟩

@[simp] theorem canonical_named (name : String) : (named name).Canonical := by
  exact canonical_iff.mpr ⟨trivial, fun part member => nomatch member⟩

@[simp] theorem canonical_array {items : TypeExpr} : (array items).Canonical ↔ items.Canonical := by
  rw [canonical_iff]
  simp [Normal, children]

theorem canonical_object {fields : List (Field TypeExpr)} {index : Option TypeExpr}
    (names : (fields.map (·.name)).Nodup) (types : ∀ field ∈ fields, field.type.Canonical)
    (opened : ∀ type, index = some type → type.Canonical) : (object fields index).Canonical := by
  refine canonical_iff.mpr ⟨names, fun part member => ?_⟩
  rcases List.mem_append.mp member with declared | other
  · obtain ⟨field, present, rfl⟩ := List.mem_map.mp declared
    exact types field present
  · exact opened part (Option.mem_toList.mp other)

theorem canonical_emptyObject : (object [] none).Canonical :=
  canonical_object List.nodup_nil (fun _ member => (nomatch member)) fun _ opened => nomatch opened

theorem canonical_literalsOf (values : List String) : (literalsOf values).Canonical := by
  have unrepeated : Unrepeated (· == ·) (distinct (· == ·) values) :=
    distinct_unrepeated (fun _ _ => Bool.beq_comm) values
  refine canonical_iff.mpr ⟨?_, fun part member => nomatch member⟩
  exact unrepeated.imp fun different => ne_of_beq_false different.1

theorem Canonical.orNull {type : TypeExpr} (canonical : type.Canonical) : type.orNull.Canonical := by
  cases type with
  | nullable inner => exact canonical
  | _ =>
    refine canonical_iff.mpr ⟨fun _ wrapped => (nomatch wrapped), fun part member => ?_⟩
    obtain rfl := List.mem_singleton.mp member
    exact canonical

theorem canonical_collapse {wrap : List TypeExpr → TypeExpr} {types : List TypeExpr}
    (each : ∀ type ∈ types, type.Canonical) (wrapped : 2 ≤ types.length → (wrap types).Canonical) :
    (collapse wrap types).Canonical := by
  match types with
  | [] => exact canonical_scalar _
  | [type] => exact each type List.mem_cons_self
  | _ :: _ :: rest => exact wrapped (Nat.le_add_left 2 rest.length)

theorem Canonical.unionMembers {type member : TypeExpr} (canonical : type.Canonical)
    (present : member ∈ type.unionMembers) :
    member.Canonical ∧ ∀ inner, member ≠ .union inner := by
  cases type with
  | union members =>
    obtain ⟨⟨_, _, flat⟩, parts⟩ := canonical_iff.mp canonical
    exact ⟨parts member present, flat member present⟩
  | _ =>
    obtain rfl := List.mem_singleton.mp present
    exact ⟨canonical, fun _ union => nomatch union⟩

theorem canonical_unionOf {types : List TypeExpr} (each : ∀ type ∈ types, type.Canonical) :
    (unionOf types).Canonical := by
  have members : ∀ member ∈ distinct same (types.flatMap unionMembers),
      member.Canonical ∧ ∀ inner, member ≠ .union inner := by
    intro member kept
    obtain ⟨type, present, inside⟩ := List.mem_flatMap.mp (mem_of_mem_distinct kept)
    exact (each type present).unionMembers inside
  refine canonical_collapse (fun member kept => (members member kept).1) fun several => ?_
  refine canonical_iff.mpr ⟨⟨several, distinct_unrepeated same_comm _, ?_⟩, ?_⟩
  · exact fun member kept => (members member kept).2
  · exact fun member kept => (members member kept).1

theorem canonical_intersectionOf {types : List TypeExpr} (each : ∀ type ∈ types, type.Canonical) :
    (intersectionOf types).Canonical := by
  have members : ∀ member ∈ distinct same types, member.Canonical :=
    fun member kept => each member (mem_of_mem_distinct kept)
  refine canonical_collapse members fun several => ?_
  exact canonical_iff.mpr ⟨⟨several, distinct_unrepeated same_comm _⟩, members⟩

/-- Widening an index type by the types of the fields beside it leaves it canonical. -/
theorem Canonical.indexType {fields : List (Field TypeExpr)} {index : TypeExpr}
    (canonical : (object fields (some index)).Canonical) :
    (TypeExpr.indexType fields index).Canonical := by
  have parts := (canonical_iff.mp canonical).2
  have opened : index.Canonical := parts index (List.mem_append_right _ (by simp))
  unfold TypeExpr.indexType
  split
  · exact opened
  · refine canonical_unionOf fun type member => ?_
    rcases List.mem_cons.mp member with rfl | declared
    · exact opened
    · exact parts type (List.mem_append_left _ declared)

end TypeExpr
end TypedClient
