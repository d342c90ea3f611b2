import TypedClient.Proofs.Synthesis.Stable
import TypedClient.Proofs.TypeExpr.Sentinels

/-!
No schema gets a type with `void` or `unknown` in it, so that a sentinel never comes from the input of a
document.
-/
namespace TypedClient

theorem TypeExpr.stable_sentinelFree : Stable SentinelFree where
  scalar := sentinelFree_scalar.mpr
  emptyObject := by simp
  literalsOf _ := sentinelFree_literals _
  array := sentinelFree_array.mpr
  orNull := SentinelFree.orNull
  unionOf := sentinelFree_unionOf
  intersectionOf := sentinelFree_intersectionOf

namespace Schema

variable {resolver : Resolver} {schema : Schema}

theorem HasType.sentinelFree {type : TypeExpr} (typed : HasType resolver schema type) :
    type.SentinelFree := by
  induction schema using induct_children generalizing type with
  | step schema children =>
    obtain ⟨core, formed, rfl⟩ := typed.formed
    refine stable_orNullIf TypeExpr.stable_sentinelFree ?_ _
    refine stable_formed TypeExpr.stable_sentinelFree (fun child member _ => children child member)
      (fun fields index _ types opened => ?_) (fun _ name _ _ => TypeExpr.sentinelFree_named name) formed
    exact TypeExpr.sentinelFree_object.mpr ⟨types, opened⟩

end Schema
end TypedClient
