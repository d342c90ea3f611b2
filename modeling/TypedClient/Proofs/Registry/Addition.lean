import TypedClient.Proofs.Registry.Insertion

/-!
A registration of a new name beside those of a log. It stands where it was made and changes nothing of
what stands before and after it.
-/
namespace TypedClient.Registry

/-- The larger registry holds one entry more, somewhere among the entries of the other. -/
structure Adds (entry : Registration) (registry larger : Registry) : Prop where
  entries : ∃ front back, registry.entries = front ++ back ∧ larger.entries = front ++ entry :: back
  collisions : larger.collisions = registry.collisions

variable {entry : Registration} {registry larger : Registry}

theorem find?_eq_none {name : String} (fresh : name ∉ registry.names) : registry.find? name = none :=
  Option.not_isSome_iff_eq_none.mp fun held => fresh (find?_isSome.mp held)

theorem adds_insert (fresh : entry.definition.name ∉ registry.names) :
    Adds entry registry (registry.insert entry) := by
  have absent := find?_eq_none fresh
  refine ⟨⟨registry.entries, [], (List.append_nil _).symm, ?_⟩, ?_⟩
  · simp [insert, absent]
  · simp [insert, collision?, source?, absent]

theorem Adds.find?_other (adds : Adds entry registry larger) {name : String}
    (apart : entry.definition.name ≠ name) : larger.find? name = registry.find? name := by
  obtain ⟨⟨front, back, held, holds⟩, -⟩ := adds
  simp [find?, held, holds, List.find?_append, apart]

theorem Adds.insert {other : Registration} (adds : Adds entry registry larger)
    (apart : entry.definition.name ≠ other.definition.name) :
    Adds entry (registry.insert other) (larger.insert other) := by
  have same := adds.find?_other apart
  obtain ⟨⟨front, back, held, holds⟩, collisions⟩ := adds
  refine ⟨?_, by simp only [Registry.insert, collision?, source?, same, collisions]⟩
  simp only [Registry.insert, same, held, holds]
  split
  · exact ⟨_, _, List.map_append, by simp [apart]⟩
  · exact ⟨front, back ++ [other], by simp, by simp⟩

theorem Adds.foldl {log : List Registration} (adds : Adds entry registry larger)
    (apart : ∀ other ∈ log, entry.definition.name ≠ other.definition.name) :
    Adds entry (log.foldl Registry.insert registry) (log.foldl Registry.insert larger) := by
  induction log generalizing registry larger with
  | nil => exact adds
  | cons other log ih =>
    obtain ⟨first, rest⟩ := List.forall_mem_cons.mp apart
    exact ih (adds.insert first) rest

/-- A new name in the middle of a log only adds its own registration. -/
theorem adds_of_fresh {before after : List Registration}
    (fresh : ∀ other ∈ before ++ after, entry.definition.name ≠ other.definition.name) :
    Adds entry ((before ++ after).foldl Registry.insert {})
      ((before ++ entry :: after).foldl Registry.insert {}) := by
  obtain ⟨earlier, later⟩ := List.forall_mem_append.mp fresh
  rw [List.foldl_append, List.foldl_append, List.foldl_cons]
  refine (adds_insert fun held => ?_).foldl later
  rcases mem_names_foldl.mp held with none | ⟨other, member, same⟩
  · cases none
  · exact earlier other member same.symm

end TypedClient.Registry
