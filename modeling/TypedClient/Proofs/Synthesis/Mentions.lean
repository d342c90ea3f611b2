import TypedClient.Proofs.Schema.References
import TypedClient.Proofs.Synthesis.Stable
import TypedClient.Proofs.TypeExpr.Mentions

/-! Every name in a synthesized type is the name that a reference inside its node resolves to. -/
namespace TypedClient

/-- Types are built without new names. -/
theorem TypeExpr.stable_mentions (names : String → Prop) :
    Stable fun type => ∀ name, type.Mentions name → names name where
  scalar _ _ mentioned := (mentions_scalar _ mentioned).elim
  emptyObject _ mentioned := by simp at mentioned
  literalsOf _ _ mentioned := (mentions_literals _ mentioned).elim
  array inside name mentioned := inside name (mentions_array.mp mentioned)
  orNull inside name mentioned := inside name (mentions_orNull.mp mentioned)
  unionOf each name mentioned := by
    obtain ⟨type, present, mentioned⟩ := mentions_of_unionOf mentioned
    exact each type present name mentioned
  intersectionOf each name mentioned := by
    obtain ⟨type, present, mentioned⟩ := mentions_of_intersectionOf mentioned
    exact each type present name mentioned

def Resolver.Names (resolver : Resolver) (paths : List String) (name : String) : Prop :=
  ∃ path ∈ paths, resolver.resolve path = .ok name

theorem Resolver.Names.mono {resolver : Resolver} {paths more : List String} {name : String}
    (names : resolver.Names paths name) (included : paths ⊆ more) : resolver.Names more name := by
  obtain ⟨path, given, resolved⟩ := names
  exact ⟨path, included given, resolved⟩

namespace Schema

variable {resolver : Resolver} {schema : Schema} {name : String}

/-- Every name in a type of the node comes from a reference of the node. -/
def NamesReferred (resolver : Resolver) (schema : Schema) : Prop :=
  ∀ type name, HasType resolver schema type → type.Mentions name →
    resolver.Names schema.references name

theorem names_referred (resolver : Resolver) (schema : Schema) : NamesReferred resolver schema := by
  induction schema using induct_children with
  | step schema children =>
    intro type name typed
    obtain ⟨core, formed, rfl⟩ := typed.formed
    have stable := TypeExpr.stable_mentions (resolver.Names schema.references)
    have inside : ∀ child ∈ schema.children, ∀ type, HasType resolver child type → ∀ name,
        type.Mentions name → resolver.Names schema.references name :=
      fun child member type typed name mentioned =>
        (children child member type name typed mentioned).mono (references_of_child member)
    refine stable_orNullIf stable ?_ _ name
    refine stable_formed stable inside (fun fields index _ types opened name mentioned => ?_)
      (fun path name shape resolved other mentioned => ?_) formed
    · rcases TypeExpr.mentions_object.mp mentioned with ⟨field, present, mentioned⟩ | ⟨type, held, mentioned⟩
      · exact types field present name mentioned
      · exact opened type held name mentioned
    · obtain rfl := TypeExpr.mentions_named.mp mentioned
      exact ⟨path, mem_references.mpr (.inl (ref_of_shape shape)), resolved⟩

theorem HasType.names {type : TypeExpr} (typed : HasType resolver schema type)
    (mentioned : type.Mentions name) : resolver.Names schema.references name :=
  names_referred resolver schema type name typed mentioned

theorem TypedOr.names {fallback type : TypeExpr} {node : Option Schema}
    (typed : TypedOr resolver fallback node type) (plain : ¬fallback.Mentions name)
    (mentioned : type.Mentions name) : resolver.Names (node.toList.flatMap references) name := by
  cases typed with
  | declared typed => simpa using typed.names mentioned
  | absent => exact (plain mentioned).elim

end Schema
end TypedClient
