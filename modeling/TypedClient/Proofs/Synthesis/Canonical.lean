import TypedClient.Proofs.Schema.Keyed
import TypedClient.Proofs.Synthesis.Stable
import TypedClient.Proofs.TypeExpr.Canonical

/-! Every type that synthesis gives to a node with distinct property names is canonical. -/
namespace TypedClient

theorem TypeExpr.stable_canonical : Stable Canonical where
  scalar _ := canonical_scalar _
  emptyObject := canonical_emptyObject
  literalsOf := canonical_literalsOf
  array := canonical_array.mpr
  orNull := Canonical.orNull
  unionOf := canonical_unionOf
  intersectionOf := canonical_intersectionOf

namespace Schema

variable {resolver : Resolver} {schema : Schema}

/-- All types of the node are canonical. -/
def TypedCanonically (resolver : Resolver) (schema : Schema) : Prop :=
  ∀ type, HasType resolver schema type → type.Canonical

theorem Keyed.typedCanonically (keyed : schema.Keyed) : TypedCanonically resolver schema := by
  induction schema using induct_children with
  | step schema ih =>
    obtain ⟨distinct, children⟩ := keyed_iff.mp keyed
    intro type typed
    obtain ⟨core, formed, rfl⟩ := typed.formed
    have inside : ∀ child ∈ schema.children, TypedCanonically resolver child :=
      fun child member => ih child member (children child member)
    refine stable_orNullIf TypeExpr.stable_canonical ?_ _
    refine stable_formed TypeExpr.stable_canonical inside (fun fields index names types opened => ?_)
      (fun _ name _ _ => TypeExpr.canonical_named name) formed
    -- The fields have the names of the properties, which are distinct.
    exact TypeExpr.canonical_object (names ▸ distinct) types opened

theorem TypedOr.canonical {fallback type : TypeExpr} {node : Option Schema}
    (typed : TypedOr resolver fallback node type) (plain : fallback.Canonical)
    (keyed : ∀ schema, node = some schema → schema.Keyed) : type.Canonical := by
  cases typed with
  | declared typed => exact (keyed _ rfl).typedCanonically type typed
  | absent => exact plain

end Schema
end TypedClient
