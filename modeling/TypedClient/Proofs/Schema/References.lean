import TypedClient.Discriminator
import TypedClient.Proofs.Document.Entries
import TypedClient.Proofs.InStep
import TypedClient.Proofs.Outcome
import TypedClient.Proofs.Schema.Nodes

/-!
The references that stand in a schema. Normalization keeps the keys of all schemas and brings no
reference in, since a pinned property refers to nothing.
-/
namespace TypedClient
namespace Schema

def references (schema : Schema) : List String :=
  (schema :: schema.inner).filterMap (·.ref)

theorem mem_references {schema : Schema} {path : String} :
    path ∈ schema.references ↔
      schema.ref = some path ∨ ∃ child ∈ schema.children, path ∈ child.references := by
  simp only [references, inner_eq schema, List.mem_filterMap, List.mem_cons, List.mem_flatMap]
  constructor
  · rintro ⟨node, rfl | ⟨child, present, member⟩, given⟩
    · exact .inl given
    · exact .inr ⟨child, present, node, member, given⟩
  · rintro (given | ⟨child, present, node, member, given⟩)
    · exact ⟨schema, .inl rfl, given⟩
    · exact ⟨node, .inr ⟨child, present, member⟩, given⟩

theorem references_of_child {schema child : Schema} (member : child ∈ schema.children) :
    child.references ⊆ schema.references := fun _ given =>
  mem_references.mpr (.inr ⟨child, member, given⟩)

end Schema

namespace Pin

theorem references_slot (variant : String) (property : Schema) :
    (slot variant property).references = [] := by
  refine List.eq_nil_iff_forall_not_mem.mpr fun path given => ?_
  rcases Schema.mem_references.mp given with given | ⟨child, member, -⟩
  · cases given
  · cases member

theorem children_applyTo {pin : Pin} {schema child : Schema}
    (member : child ∈ (pin.applyTo schema).children) :
    child ∈ schema.children ∨ ∃ property, child = slot pin.variant property := by
  simp only [applyTo, Schema.children, Option.getD_some, List.append_assoc] at member ⊢
  rcases List.mem_append.mp member with changed | other
  · obtain ⟨entry, present, rfl⟩ := List.mem_map.mp changed
    rcases Entries.mem_alter present with old | ⟨held, slotted⟩
    · exact .inl (List.mem_append_left _ (List.mem_map_of_mem old))
    · exact .inr ⟨_, slotted⟩
  · exact .inl (List.mem_append_right _ other)

theorem references_applyTo (pin : Pin) (schema : Schema) :
    (pin.applyTo schema).references ⊆ schema.references := by
  intro path given
  rcases Schema.mem_references.mp given with given | ⟨child, member, given⟩
  · exact Schema.mem_references.mpr (.inl given)
  · rcases children_applyTo member with kept | ⟨property, rfl⟩
    · exact Schema.references_of_child kept given
    · rw [references_slot] at given
      cases given

/-- Of the schemas a mapping reads the keys only. -/
theorem ofMapping_congr {schemas others : List (String × Schema)}
    (known : ∀ key, Entries.has key schemas = Entries.has key others) (property : String)
    (mapping : List (String × String)) :
    ofMapping schemas property mapping = ofMapping others property mapping := by
  induction mapping with
  | nil => rfl
  | cons entry rest ih => simp only [ofMapping, known, ih]

/-- The same key, and no further reference. -/
structure Keeps (before after : String × Schema) : Prop where
  key : after.1 = before.1
  references : after.2.references ⊆ before.2.references

theorem Keeps.refl (entry : String × Schema) : Keeps entry entry :=
  ⟨rfl, fun _ given => given⟩

theorem Keeps.trans {first second third : String × Schema} (earlier : Keeps first second)
    (later : Keeps second third) : Keeps first third :=
  ⟨later.key.trans earlier.key, fun _ given => earlier.references (later.references given)⟩

section Related

variable {R : String × Schema → String × Schema → Prop} (refl : ∀ entry, R entry entry)
include refl

theorem apply_related {pin : Pin}
    (changed : ∀ schema, R (pin.key, schema) (pin.key, pin.applyTo schema))
    (schemas : List (String × Schema)) : List.Forall₂ R schemas (apply schemas pin) := by
  unfold apply
  induction schemas with
  | nil => exact .nil
  | cons entry rest ih =>
    obtain ⟨held, schema⟩ := entry
    rw [Entries.adjust]
    split
    · rename_i same
      obtain rfl : held = pin.key := eq_of_beq same
      exact .cons (changed schema) (List.forall₂_same.mpr fun entry _ => refl entry)
    · exact .cons (refl _) ih

theorem foldl_apply_related {pins : List Pin}
    (changed : ∀ pin ∈ pins, ∀ schema, R (pin.key, schema) (pin.key, pin.applyTo schema))
    (trans : ∀ first second third, R first second → R second third → R first third)
    (schemas : List (String × Schema)) : List.Forall₂ R schemas (pins.foldl apply schemas) := by
  induction pins generalizing schemas with
  | nil => exact List.forall₂_same.mpr fun entry _ => refl entry
  | cons pin pins ih =>
    obtain ⟨first, later⟩ := List.forall_mem_cons.mp changed
    exact InStep.trans trans (apply_related refl first schemas) (ih later _)

end Related

end Pin

theorem normalizeDiscriminators_pins {schemas normalized : List (String × Schema)}
    (made : (normalizeDiscriminators schemas).outcome = .ok normalized) :
    ∃ pins, Pin.collect schemas schemas = .ok pins ∧ pins.foldl Pin.apply schemas = normalized := by
  unfold normalizeDiscriminators at made
  split at made
  · cases made
  · rename_i pins collected
    exact ⟨pins, collected, Except.ok.inj made⟩

theorem normalizeDiscriminators_keeps {schemas normalized : List (String × Schema)}
    (made : (normalizeDiscriminators schemas).outcome = .ok normalized) :
    List.Forall₂ Pin.Keeps schemas normalized := by
  obtain ⟨pins, -, rfl⟩ := normalizeDiscriminators_pins made
  refine Pin.foldl_apply_related Pin.Keeps.refl (fun pin _ schema => ?_) (fun _ _ _ => .trans) _
  exact ⟨rfl, Pin.references_applyTo pin schema⟩

theorem normalizeDiscriminators_distinct {schemas normalized : List (String × Schema)}
    (made : (normalizeDiscriminators schemas).outcome = .ok normalized)
    (distinct : Entries.Distinct schemas) : Entries.Distinct normalized := by
  have kept := normalizeDiscriminators_keeps made
  rw [Entries.Distinct, ← InStep.map_eq kept fun _ _ keeps => keeps.key.symm]
  exact distinct

end TypedClient
