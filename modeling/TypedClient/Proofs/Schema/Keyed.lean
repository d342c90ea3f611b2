import TypedClient.Proofs.Document.Entries
import TypedClient.Proofs.Schema.References

/-!
Schemas in which no node declares a property twice. Normalization keeps them so, since a pin changes a
property in its place or adds a new one.
-/
namespace TypedClient
namespace Schema

/-- The properties of every node inside have distinct names. -/
def Keyed (schema : Schema) : Prop :=
  ∀ node ∈ schema :: schema.inner, Entries.Distinct (node.properties.getD [])

theorem keyed_iff {schema : Schema} :
    schema.Keyed ↔
      Entries.Distinct (schema.properties.getD []) ∧ ∀ child ∈ schema.children, child.Keyed := by
  constructor
  · intro keyed
    refine ⟨keyed schema List.mem_cons_self, fun child member node inside => ?_⟩
    refine keyed node (List.mem_cons_of_mem _ (mem_inner.mpr ⟨child, member, ?_⟩))
    exact List.mem_cons.mp inside
  · rintro ⟨distinct, children⟩ node inside
    rcases List.mem_cons.mp inside with rfl | inner
    · exact distinct
    · obtain ⟨child, member, inside⟩ := mem_inner.mp inner
      exact children child member node (List.mem_cons.mpr inside)

theorem keyed_undeclared {schema : Schema} (undeclared : schema.properties = none)
    (children : ∀ child ∈ schema.children, child.Keyed) : schema.Keyed :=
  keyed_iff.mpr ⟨by simp [undeclared, Entries.Distinct], children⟩

end Schema

namespace Pin

theorem keyed_slot (variant : String) (property : Schema) : (slot variant property).Keyed :=
  Schema.keyed_undeclared rfl fun _ member => nomatch member

theorem keyed_applyTo (pin : Pin) {schema : Schema} (keyed : schema.Keyed) :
    (pin.applyTo schema).Keyed := by
  obtain ⟨distinct, children⟩ := Schema.keyed_iff.mp keyed
  refine Schema.keyed_iff.mpr ⟨distinct.alter _ _, fun child member => ?_⟩
  rcases children_applyTo member with kept | ⟨property, rfl⟩
  · exact children child kept
  · exact keyed_slot _ _

end Pin

theorem normalizeDiscriminators_keyed {schemas normalized : List (String × Schema)}
    (made : (normalizeDiscriminators schemas).outcome = .ok normalized)
    (keyed : ∀ entry ∈ schemas, entry.2.Keyed) : ∀ entry ∈ normalized, entry.2.Keyed := by
  obtain ⟨pins, -, rfl⟩ := normalizeDiscriminators_pins made
  have related : List.Forall₂ (fun before after => before.2.Keyed → after.2.Keyed) schemas
      (pins.foldl Pin.apply schemas) := by
    refine Pin.foldl_apply_related (fun _ keyed => keyed) (fun pin _ _ => pin.keyed_applyTo) ?_ _
    exact fun _ _ _ earlier later keyed => later (earlier keyed)
  intro entry member
  obtain ⟨original, present, keeps⟩ := InStep.left_of_right related member
  exact keeps (keyed original present)

end TypedClient
