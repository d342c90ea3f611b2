import TypedClient.Proofs.TypeText.Tree

/-!
Types whose text can be read back: no union or intersection of fewer than two members, and no name that
is predefined or no identifier. Widening an index type keeps this.
-/
namespace TypedClient.TypeExpr
open TypeText

def LegibleNode : TypeExpr → Prop
  | .union members => 2 ≤ members.length
  | .intersection members => 2 ≤ members.length
  | .named name => isIdentifier name = true ∧ Predefined.ofWord? name = none
  | _ => True

def Legible (type : TypeExpr) : Prop :=
  ∀ part ∈ type.subterms, part.LegibleNode

theorem legible_iff {type : TypeExpr} :
    type.Legible ↔ type.LegibleNode ∧ ∀ part ∈ type.children, part.Legible := by
  constructor
  · intro legible
    refine ⟨legible type (mem_subterms.mpr (.inl rfl)), fun child member part inside => ?_⟩
    exact legible part (mem_subterms.mpr (.inr ⟨child, member, inside⟩))
  · rintro ⟨node, children⟩ part inside
    rcases mem_subterms.mp inside with rfl | ⟨child, member, inside⟩
    · exact node
    · exact children child member part inside

theorem legible_unionMembers {type member : TypeExpr} (legible : type.Legible)
    (present : member ∈ type.unionMembers) : member.Legible := by
  cases type with
  | union members => exact (legible_iff.mp legible).2 member present
  | _ =>
    obtain rfl := List.mem_singleton.mp present
    exact legible

theorem legible_collapse_union {types : List TypeExpr} (legible : ∀ type ∈ types, type.Legible) :
    (collapse .union types).Legible := by
  match types with
  | [] => exact legible_iff.mpr ⟨trivial, by simp [children, collapse]⟩
  | [type] => exact legible type List.mem_cons_self
  | first :: second :: rest =>
    have several : 2 ≤ (first :: second :: rest).length := by simp
    exact legible_iff.mpr ⟨several, legible⟩

theorem legible_unionOf {types : List TypeExpr} (legible : ∀ type ∈ types, type.Legible) :
    (unionOf types).Legible := by
  refine legible_collapse_union fun member kept => ?_
  obtain ⟨type, present, member⟩ := List.mem_flatMap.mp (mem_of_mem_distinct kept)
  exact legible_unionMembers (legible type present) member

theorem legible_indexType {fields : List (Field TypeExpr)} {index : TypeExpr} (own : index.Legible)
    (declared : ∀ field ∈ fields, field.type.Legible) : (indexType fields index).Legible := by
  unfold indexType
  split
  · exact own
  · refine legible_unionOf fun type member => ?_
    rcases List.mem_cons.mp member with rfl | member
    · exact own
    · obtain ⟨field, present, rfl⟩ := List.mem_map.mp member
      exact declared field present

theorem Legible.part {type part : TypeExpr} (legible : type.Legible) (member : part ∈ type.parts) :
    part.Legible := by
  have children := (legible_iff.mp legible).2
  cases type with
  | object fields index =>
    have declared : ∀ field ∈ fields, field.type.Legible := fun field present =>
      children _ (List.mem_append_left _ (List.mem_map_of_mem present))
    simp only [parts, entries, List.map_append, List.map_map, List.mem_append, List.mem_map,
      Function.comp_apply, Option.mem_toList] at member
    rcases member with ⟨field, present, rfl⟩ | ⟨type, rfl, rfl⟩
    · exact declared field present
    · have own := children type (List.mem_append_right _ (Option.mem_toList.mpr rfl))
      exact legible_indexType own declared
  | _ => exact children part member

end TypedClient.TypeExpr
