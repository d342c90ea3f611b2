import Mathlib.Data.List.Induction
import TypedClient.Proofs.Discriminator.Overlap

/-!
Normalization of a normalized map. Pins change no discriminator and no key, so the second run collects
the pins of the first. Writing them over what they left is writing nothing: of two pins of one place the
later counts, and pins of different places may change places as soon as their properties are there.
-/
namespace TypedClient
namespace Pin

/-- The schema under the key, if there is one, has the property. -/
def Present (pin : Pin) (schemas : List (String × Schema)) : Prop :=
  ∀ schema, Entries.get? pin.key schemas = some schema →
    Entries.has pin.property (schema.properties.getD []) = true

/-! ### Two pins -/

section Two

variable {pin other : Pin} {schemas : List (String × Schema)}

theorem applyTo_applyTo (same : pin.property = other.property) (schema : Schema) :
    pin.applyTo (other.applyTo schema) = pin.applyTo schema := by
  simp only [applyTo, Option.getD_some, ← same, Entries.alter_alter]
  rfl

theorem applyTo_comm (different : pin.property ≠ other.property) {schema : Schema}
    (present : Entries.has other.property (schema.properties.getD []) = true) :
    pin.applyTo (other.applyTo schema) = other.applyTo (pin.applyTo schema) := by
  simp only [applyTo, Option.getD_some, Entries.alter_comm different _ _ present]

/-- Of two pins of one place the later counts. -/
theorem apply_apply (same : other.place = pin.place) (schemas : List (String × Schema)) :
    apply (apply schemas other) pin = apply schemas pin := by
  obtain ⟨key, property⟩ := Prod.mk.inj same
  unfold apply
  rw [key, Entries.adjust_adjust]
  exact Entries.adjust_congr fun schema _ => applyTo_applyTo property.symm schema

theorem apply_comm (different : other.place ≠ pin.place) (present : other.Present schemas) :
    apply (apply schemas other) pin = apply (apply schemas pin) other := by
  unfold apply
  by_cases key : pin.key = other.key
  · have property : pin.property ≠ other.property := fun same =>
      different (Prod.ext key.symm same.symm)
    rw [key, Entries.adjust_adjust, Entries.adjust_adjust]
    exact Entries.adjust_congr fun schema held => applyTo_comm property (present schema held)
  · exact Entries.adjust_comm key _ _ schemas

theorem present_apply_self (pin : Pin) (schemas : List (String × Schema)) :
    pin.Present (apply schemas pin) := by
  intro schema held
  rw [apply, Entries.get?_adjust] at held
  obtain ⟨before, -, rfl⟩ := Option.map_eq_some_iff.mp held
  rw [if_pos rfl]
  exact (Entries.has_alter _ _ _ _).mpr (.inl rfl)

theorem Present.apply (present : other.Present schemas) (pin : Pin) :
    other.Present (pin.apply schemas) := by
  intro schema held
  rw [Pin.apply, Entries.get?_adjust] at held
  obtain ⟨before, given, rfl⟩ := Option.map_eq_some_iff.mp held
  have kept := present before given
  split
  · exact (Entries.has_alter _ _ _ _).mpr (.inr kept)
  · exact kept

end Two

/-! ### Many pins -/

section Many

variable {pins : List Pin} {schemas : List (String × Schema)}

theorem Present.foldl_apply {pin : Pin} (present : pin.Present schemas) (pins : List Pin) :
    pin.Present (pins.foldl Pin.apply schemas) :=
  List.foldlRecOn pins _ present fun _ kept other _ => kept.apply other

theorem present_foldl_apply {pin : Pin} (member : pin ∈ pins) :
    pin.Present (pins.foldl apply schemas) := by
  induction pins generalizing schemas with
  | nil => cases member
  | cons first pins ih =>
    rcases List.mem_cons.mp member with rfl | later
    · exact (present_apply_self pin schemas).foldl_apply pins
    · exact ih later

/-- A pin that is written again after others need not have been written before them. -/
theorem apply_again {pin : Pin} (present : ∀ other ∈ pins, other.Present schemas) :
    apply (pins.foldl apply (apply schemas pin)) pin = apply (pins.foldl apply schemas) pin := by
  induction pins generalizing schemas with
  | nil => exact apply_apply rfl schemas
  | cons other pins ih =>
    obtain ⟨here, later⟩ := List.forall_mem_cons.mp present
    rw [List.foldl_cons, List.foldl_cons]
    by_cases same : pin.place = other.place
    · rw [apply_apply same]
    · -- The earlier write moves behind the pin of another place, and on to the later write.
      have moved : apply (apply schemas pin) other = apply (apply schemas other) pin :=
        (apply_comm (Ne.symm same) here).symm
      rw [moved]
      exact ih fun next member => (later next member).apply other

theorem foldl_apply_twice (pins : List Pin) (schemas : List (String × Schema)) :
    pins.foldl apply (pins.foldl apply schemas) = pins.foldl apply schemas := by
  induction pins using List.reverseRecOn with
  | nil => rfl
  | append_singleton pins pin ih =>
    have present : ∀ other ∈ pins, other.Present (pins.foldl apply schemas) :=
      fun other member => present_foldl_apply member
    simp only [List.foldl_append, List.foldl_cons, List.foldl_nil]
    rw [apply_again present, ih]

end Many

/-! ### Collection -/

/-- The same key, and no change but in the properties. -/
structure Spares (before after : String × Schema) : Prop where
  key : after.1 = before.1
  keywords : { after.2 with properties := none } = { before.2 with properties := none }

theorem Spares.refl (entry : String × Schema) : Spares entry entry :=
  ⟨rfl, rfl⟩

theorem Spares.trans {first second third : String × Schema} (earlier : Spares first second)
    (later : Spares second third) : Spares first third :=
  ⟨later.key.trans earlier.key, later.keywords.trans earlier.keywords⟩

theorem spares_applyTo (pin : Pin) (key : String) (schema : Schema) :
    Spares (key, schema) (key, pin.applyTo schema) :=
  ⟨rfl, rfl⟩

theorem foldl_apply_spares (pins : List Pin) (schemas : List (String × Schema)) :
    List.Forall₂ Spares schemas (pins.foldl apply schemas) :=
  foldl_apply_related Spares.refl (fun pin _ => spares_applyTo pin pin.key) (fun _ _ _ => .trans) schemas

theorem has_foldl_apply (pins : List Pin) (schemas : List (String × Schema)) (key : String) :
    Entries.has key (pins.foldl apply schemas) = Entries.has key schemas := by
  have keys := InStep.map_eq (foldl_apply_spares pins schemas) fun _ _ spares => spares.key.symm
  exact Entries.has_congr keys.symm key

theorem ofSchema_congr {schemas others : List (String × Schema)}
    (known : ∀ key, Entries.has key schemas = Entries.has key others) {before after : Schema}
    (keywords : { after with properties := none } = { before with properties := none }) :
    ofSchema schemas before = ofSchema others after := by
  have reads (schema : Schema) :
      ofSchema others { schema with properties := none } = ofSchema others schema := rfl
  rw [← reads after, keywords, reads before]
  simp only [ofSchema, ofMapping_congr known]

theorem collect_congr {schemas others : List (String × Schema)}
    (known : ∀ key, Entries.has key schemas = Entries.has key others)
    {given changed : List (String × Schema)} (spared : List.Forall₂ Spares given changed) :
    collect schemas given = collect others changed := by
  induction spared with
  | nil => rfl
  | @cons before after _ _ head _ ih =>
    simp only [collect, ofSchema_congr known head.keywords, ih]

end Pin

/-- A second run changes nothing and reports the same. -/
theorem normalizeDiscriminators_idempotent {schemas normalized : List (String × Schema)}
    (made : (normalizeDiscriminators schemas).outcome = .ok normalized) :
    normalizeDiscriminators normalized =
      ⟨(normalizeDiscriminators schemas).events, .ok normalized⟩ := by
  obtain ⟨pins, collected, rfl⟩ := normalizeDiscriminators_pins made
  have again : Pin.collect (pins.foldl Pin.apply schemas) (pins.foldl Pin.apply schemas) = .ok pins := by
    rw [← collected]
    exact (Pin.collect_congr (fun key => (Pin.has_foldl_apply pins schemas key).symm)
      (Pin.foldl_apply_spares pins schemas)).symm
  simp only [normalizeDiscriminators, collected, again, Pin.foldl_apply_twice]

theorem animalSchemas_idempotent : ∃ normalized,
    (normalizeDiscriminators animalSchemas).outcome = .ok normalized ∧
      normalizeDiscriminators normalized =
        ⟨(normalizeDiscriminators animalSchemas).events, .ok normalized⟩ :=
  ⟨_, animalSchemas_normalized, normalizeDiscriminators_idempotent animalSchemas_normalized⟩

end TypedClient
