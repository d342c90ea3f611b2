import TypedClient.Proofs.TypeExpr.Distinct

/-!
Expressions without the sentinels `void` and `unknown`. No way of building a type from parts without
sentinels brings one in.
-/
namespace TypedClient.TypeExpr

/-- Neither `void` nor `unknown` stands in the expression at any depth. -/
def SentinelFree (type : TypeExpr) : Prop :=
  ∀ kind, .scalar kind ∈ type.subterms → kind ≠ .void ∧ kind ≠ .unknown

theorem sentinelFree_of_children {type : TypeExpr} (compound : ∀ kind, .scalar kind ≠ type) :
    type.SentinelFree ↔ ∀ part ∈ type.children, part.SentinelFree := by
  constructor
  · intro free part member kind inside
    exact free kind (mem_subterms.mpr (.inr ⟨part, member, inside⟩))
  · intro children kind inside
    rcases mem_subterms.mp inside with here | ⟨part, member, inside⟩
    · exact (compound kind here).elim
    · exact children part member kind inside

@[simp] theorem sentinelFree_scalar {kind : Scalar} :
    (scalar kind).SentinelFree ↔ kind ≠ .void ∧ kind ≠ .unknown := by
  constructor
  · intro free
    exact free kind (mem_subterms.mpr (.inl rfl))
  · intro proper other inside
    rcases mem_subterms.mp inside with here | ⟨part, member, -⟩
    · cases here
      exact proper
    · cases member

@[simp] theorem sentinelFree_named (name : String) : (named name).SentinelFree := by
  simp [sentinelFree_of_children, children]

@[simp] theorem sentinelFree_literals (values : List String) : (literals values).SentinelFree := by
  simp [sentinelFree_of_children, children]

@[simp] theorem sentinelFree_array {items : TypeExpr} :
    (array items).SentinelFree ↔ items.SentinelFree := by
  simp [sentinelFree_of_children, children]

@[simp] theorem sentinelFree_nullable {inner : TypeExpr} :
    (nullable inner).SentinelFree ↔ inner.SentinelFree := by
  simp [sentinelFree_of_children, children]

@[simp] theorem sentinelFree_union {members : List TypeExpr} :
    (union members).SentinelFree ↔ ∀ member ∈ members, member.SentinelFree := by
  simp [sentinelFree_of_children, children]

@[simp] theorem sentinelFree_intersection {members : List TypeExpr} :
    (intersection members).SentinelFree ↔ ∀ member ∈ members, member.SentinelFree := by
  simp [sentinelFree_of_children, children]

@[simp] theorem sentinelFree_object {fields : List (Field TypeExpr)} {index : Option TypeExpr} :
    (object fields index).SentinelFree ↔
      (∀ field ∈ fields, field.type.SentinelFree) ∧ ∀ type ∈ index, type.SentinelFree := by
  simp [sentinelFree_of_children, children, or_imp, forall_and]

theorem SentinelFree.orNull {type : TypeExpr} (free : type.SentinelFree) : type.orNull.SentinelFree := by
  cases type with
  | nullable inner => exact free
  | _ => exact sentinelFree_nullable.mpr free

/-- The fallback of a collapse is `any`. -/
theorem sentinelFree_collapse {wrap : List TypeExpr → TypeExpr} {types : List TypeExpr}
    (each : ∀ type ∈ types, type.SentinelFree) (wrapped : (wrap types).SentinelFree) :
    (collapse wrap types).SentinelFree := by
  match types with
  | [] => exact sentinelFree_scalar.mpr (by decide)
  | [type] => exact each type List.mem_cons_self
  | _ :: _ :: _ => exact wrapped

theorem SentinelFree.unionMembers {type member : TypeExpr} (free : type.SentinelFree)
    (present : member ∈ type.unionMembers) : member.SentinelFree := by
  cases type with
  | union members => exact sentinelFree_union.mp free member present
  | _ =>
    obtain rfl := List.mem_singleton.mp present
    exact free

theorem sentinelFree_unionOf {types : List TypeExpr} (each : ∀ type ∈ types, type.SentinelFree) :
    (unionOf types).SentinelFree := by
  have members : ∀ member ∈ distinct same (types.flatMap TypeExpr.unionMembers),
      member.SentinelFree := by
    intro member kept
    obtain ⟨type, present, inside⟩ := List.mem_flatMap.mp (mem_of_mem_distinct kept)
    exact (each type present).unionMembers inside
  exact sentinelFree_collapse members (sentinelFree_union.mpr members)

theorem sentinelFree_intersectionOf {types : List TypeExpr}
    (each : ∀ type ∈ types, type.SentinelFree) : (intersectionOf types).SentinelFree := by
  have members : ∀ member ∈ distinct same types, member.SentinelFree :=
    fun member kept => each member (mem_of_mem_distinct kept)
  exact sentinelFree_collapse members (sentinelFree_intersection.mpr members)

end TypedClient.TypeExpr
