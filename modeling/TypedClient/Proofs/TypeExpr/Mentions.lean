import TypedClient.Proofs.TypeExpr.Distinct
import TypedClient.Proofs.TypeExpr.Subterms

/-! The names that occur in a type expression. Building a type brings no name in. -/
namespace TypedClient.TypeExpr

/-- The name occurs in the expression at some depth. -/
def Mentions (type : TypeExpr) (name : String) : Prop :=
  .named name ∈ type.subterms

variable {name : String}

theorem mentions_iff (type : TypeExpr) :
    type.Mentions name ↔ type = .named name ∨ ∃ part ∈ type.children, part.Mentions name := by
  rw [Mentions, mem_subterms]
  exact or_congr eq_comm Iff.rfl

@[simp] theorem mentions_named {other : String} : (named other).Mentions name ↔ other = name := by
  simp [mentions_iff (.named other), children]

@[simp] theorem mentions_scalar (kind : Scalar) : ¬(scalar kind).Mentions name := by
  simp [mentions_iff (.scalar kind), children]

@[simp] theorem mentions_literals (values : List String) : ¬(literals values).Mentions name := by
  simp [mentions_iff (.literals values), children]

@[simp] theorem mentions_array {items : TypeExpr} :
    (array items).Mentions name ↔ items.Mentions name := by
  simp [mentions_iff (.array items), children]

@[simp] theorem mentions_nullable {inner : TypeExpr} :
    (nullable inner).Mentions name ↔ inner.Mentions name := by
  simp [mentions_iff (.nullable inner), children]

@[simp] theorem mentions_union {members : List TypeExpr} :
    (union members).Mentions name ↔ ∃ member ∈ members, member.Mentions name := by
  simp [mentions_iff (.union members), children]

@[simp] theorem mentions_intersection {members : List TypeExpr} :
    (intersection members).Mentions name ↔ ∃ member ∈ members, member.Mentions name := by
  simp [mentions_iff (.intersection members), children]

@[simp] theorem mentions_object {fields : List (Field TypeExpr)} {index : Option TypeExpr} :
    (object fields index).Mentions name ↔
      (∃ field ∈ fields, field.type.Mentions name) ∨ ∃ type, index = some type ∧ type.Mentions name := by
  simp [mentions_iff (.object fields index), children, or_and_right, exists_or, eq_comm]

theorem mentions_of_collapse {wrap : List TypeExpr → TypeExpr} {types : List TypeExpr}
    (wrapped : (wrap types).Mentions name → ∃ type ∈ types, type.Mentions name)
    (mentioned : (collapse wrap types).Mentions name) : ∃ type ∈ types, type.Mentions name := by
  match types with
  | [] => exact (mentions_scalar _ mentioned).elim
  | [type] => exact ⟨type, List.mem_cons_self, mentioned⟩
  | _ :: _ :: _ => exact wrapped mentioned

theorem mentions_of_unionMembers {type member : TypeExpr} (present : member ∈ type.unionMembers)
    (mentioned : member.Mentions name) : type.Mentions name := by
  cases type with
  | union members => exact mentions_union.mpr ⟨member, present, mentioned⟩
  | _ =>
    obtain rfl := List.mem_singleton.mp present
    exact mentioned

theorem mentions_of_unionOf {types : List TypeExpr} (mentioned : (unionOf types).Mentions name) :
    ∃ type ∈ types, type.Mentions name := by
  obtain ⟨member, kept, mentioned⟩ := mentions_of_collapse mentions_union.mp mentioned
  obtain ⟨type, present, member⟩ := List.mem_flatMap.mp (mem_of_mem_distinct kept)
  exact ⟨type, present, mentions_of_unionMembers member mentioned⟩

theorem mentions_of_intersectionOf {types : List TypeExpr}
    (mentioned : (intersectionOf types).Mentions name) : ∃ type ∈ types, type.Mentions name := by
  obtain ⟨type, kept, mentioned⟩ := mentions_of_collapse mentions_intersection.mp mentioned
  exact ⟨type, mem_of_mem_distinct kept, mentioned⟩

@[simp] theorem mentions_orNull {type : TypeExpr} : type.orNull.Mentions name ↔ type.Mentions name := by
  cases type <;> simp [orNull]

end TypedClient.TypeExpr
