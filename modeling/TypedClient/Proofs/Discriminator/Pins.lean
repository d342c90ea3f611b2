import TypedClient.Proofs.Document.Entries
import TypedClient.Proofs.Schema.References

/-!
The pins of a schema map, and what they make of the schemas under their keys. Pins of one schema follow
one another and change nothing but its properties, and a property that is pinned to one variant only
ends as the slot of that variant.
-/
namespace TypedClient

/-- Some composition keyword is given. -/
def Schema.Composed (schema : Schema) : Prop :=
  ∃ composition, (schema.members composition).isSome

namespace Pin

/-- The pin is that of an entry in the mapping of this property. -/
def Mapped (property : String) (mapping : List (String × String)) (pin : Pin) : Prop :=
  property = pin.property ∧ ∃ target, (pin.variant, target) ∈ mapping ∧ keyOf target = .ok pin.key

/-- The pin is mapped by the discriminator of a composition. -/
def DeclaredBy (schema : Schema) (pin : Pin) : Prop :=
  schema.Composed ∧ ∃ discriminator, schema.discriminator = some discriminator ∧
    pin.Mapped discriminator.property discriminator.mapping

def Declared (schemas : List (String × Schema)) (pin : Pin) : Prop :=
  ∃ entry ∈ schemas, pin.DeclaredBy entry.2

/-! ### Collection -/

/-- The pins are the declared ones, and all of them are pins of schemas. -/
structure Collects (schemas : List (String × Schema)) (declared : Pin → Prop) (pins : List Pin) :
    Prop where
  mem : ∀ pin, pin ∈ pins ↔ declared pin
  known : ∀ pin ∈ pins, Entries.has pin.key schemas = true

theorem composed_iff (schema : Schema) :
    (schema.oneOf.isSome || schema.anyOf.isSome || schema.allOf.isSome) = true ↔ schema.Composed := by
  simp only [Bool.or_eq_true]
  constructor
  · rintro ((one | any) | all)
    · exact ⟨.oneOf, one⟩
    · exact ⟨.anyOf, any⟩
    · exact ⟨.allOf, all⟩
  · rintro ⟨composition, given⟩
    cases composition with
    | oneOf => exact .inl (.inl given)
    | anyOf => exact .inl (.inr given)
    | allOf => exact .inr given

section Collection

variable {schemas : List (String × Schema)} {pins : List Pin}

theorem collects_nil {declared : Pin → Prop} (none : ∀ pin, ¬declared pin) :
    Collects schemas declared [] :=
  ⟨fun pin => ⟨fun member => (nomatch member), fun given => (none pin given).elim⟩,
    fun _ member => nomatch member⟩

/-- An entry of a mapping that was read adds one pin, and it is the pin of a schema. -/
theorem ofMapping_cons_ok {property variant target : String} {rest : List (String × String)}
    (made : ofMapping schemas property ((variant, target) :: rest) = .ok pins) :
    ∃ key later, keyOf target = .ok key ∧ Entries.has key schemas = true ∧
      ofMapping schemas property rest = .ok later ∧ pins = ⟨key, property, variant⟩ :: later := by
  obtain ⟨key, parsed, made⟩ := bind_ok made
  split at made
  · rename_i present
    obtain ⟨later, others, made⟩ := bind_ok made
    exact ⟨key, later, parsed, present, others, (Except.ok.inj made).symm⟩
  · cases made

/-- The pins of a schema stand before those of the schemas after it. -/
theorem collect_cons_ok {entry : String × Schema} {rest : List (String × Schema)}
    (made : collect schemas (entry :: rest) = .ok pins) :
    ∃ first later, ofSchema schemas entry.2 = .ok first ∧ collect schemas rest = .ok later ∧
      pins = first ++ later := by
  obtain ⟨first, own, made⟩ := bind_ok made
  obtain ⟨later, others, made⟩ := bind_ok made
  exact ⟨first, later, own, others, (Except.ok.inj made).symm⟩

theorem ofMapping_collects {property : String} {mapping : List (String × String)}
    (made : ofMapping schemas property mapping = .ok pins) :
    Collects schemas (Mapped property mapping) pins := by
  induction mapping generalizing pins with
  | nil =>
    obtain rfl := Except.ok.inj made
    exact collects_nil fun _ ⟨_, _, member, _⟩ => nomatch member
  | cons entry rest ih =>
    obtain ⟨variant, target⟩ := entry
    obtain ⟨key, later, parsed, present, others, rfl⟩ := ofMapping_cons_ok made
    have collects := ih others
    refine ⟨fun pin => ?_, List.forall_mem_cons.mpr ⟨present, collects.known⟩⟩
    rw [List.mem_cons, collects.mem]
    constructor
    · rintro (rfl | ⟨same, target', member, parsed'⟩)
      · exact ⟨rfl, target, List.mem_cons_self, parsed⟩
      · exact ⟨same, target', List.mem_cons_of_mem _ member, parsed'⟩
    · rintro ⟨rfl, target', member, parsed'⟩
      rcases List.mem_cons.mp member with first | later
      · obtain ⟨rfl, rfl⟩ := Prod.mk.inj first
        obtain rfl := Except.ok.inj (parsed'.symm.trans parsed)
        exact .inl rfl
      · exact .inr ⟨rfl, target', later, parsed'⟩

theorem ofSchema_collects {schema : Schema} (made : ofSchema schemas schema = .ok pins) :
    Collects schemas (DeclaredBy schema) pins := by
  unfold ofSchema at made
  split at made
  · rename_i discriminator given
    split at made
    · rename_i composed
      have collects := ofMapping_collects made
      refine ⟨fun pin => ?_, collects.known⟩
      rw [collects.mem, DeclaredBy, given, ← composed_iff]
      simp [composed]
    · rename_i alone
      obtain rfl := Except.ok.inj made
      exact collects_nil fun _ ⟨composed, _⟩ => alone ((composed_iff schema).mpr composed)
  · rename_i absent
    obtain rfl := Except.ok.inj made
    refine collects_nil fun _ ⟨_, _, given, _⟩ => ?_
    rw [absent] at given
    cases given

theorem collect_collects {given : List (String × Schema)} (made : collect schemas given = .ok pins) :
    Collects schemas (Declared given) pins := by
  induction given generalizing pins with
  | nil =>
    obtain rfl := Except.ok.inj made
    exact collects_nil fun _ ⟨_, member, _⟩ => nomatch member
  | cons entry rest ih =>
    obtain ⟨first, later, own, others, rfl⟩ := collect_cons_ok made
    have own := ofSchema_collects own
    have others := ih others
    refine ⟨fun pin => ?_, List.forall_mem_append.mpr ⟨own.known, others.known⟩⟩
    rw [List.mem_append, own.mem, others.mem]
    simp [Declared]

end Collection

/-! ### Several pins of one schema -/

def applyAll (pins : List Pin) (schema : Schema) : Schema :=
  pins.foldl (fun schema pin => pin.applyTo schema) schema

@[simp] theorem applyAll_nil (schema : Schema) : applyAll [] schema = schema := rfl

@[simp] theorem applyAll_cons (pin : Pin) (pins : List Pin) (schema : Schema) :
    applyAll (pin :: pins) schema = applyAll pins (pin.applyTo schema) := rfl

theorem get?_foldl_apply (pins : List Pin) (schemas : List (String × Schema)) (key : String) :
    Entries.get? key (pins.foldl apply schemas) =
      (Entries.get? key schemas).map (applyAll (pins.filter (·.key == key))) := by
  induction pins generalizing schemas with
  | nil => cases held : Entries.get? key schemas <;> simp [held]
  | cons pin pins ih =>
    rw [List.foldl_cons, ih, apply, Entries.get?_adjust, Option.map_map]
    cases Entries.get? key schemas with
    | none => rfl
    | some schema => by_cases same : pin.key = key <;> simp [same]

/-- Pins change nothing but properties. -/
theorem applyAll_undeclared (pins : List Pin) (schema : Schema) :
    { applyAll pins schema with properties := none } = { schema with properties := none } := by
  induction pins generalizing schema with
  | nil => rfl
  | cons pin pins ih => exact ih (pin.applyTo schema)

def propertyOf (name : String) (schema : Schema) : Option Schema :=
  Entries.get? name (schema.properties.getD [])

theorem propertyOf_applyTo (pin : Pin) (name : String) (schema : Schema) :
    propertyOf name (pin.applyTo schema) =
      if pin.property = name then
        some (slot pin.variant ((propertyOf pin.property schema).getD {}))
      else propertyOf name schema :=
  Entries.get?_alter pin.property name _ _

theorem applyAll_keeps_slot {pins : List Pin} {name variant : String} {schema given : Schema}
    (agree : ∀ pin ∈ pins, pin.property = name → pin.variant = variant)
    (held : propertyOf name schema = some (slot variant given)) :
    ∃ given, propertyOf name (applyAll pins schema) = some (slot variant given) := by
  induction pins generalizing schema given with
  | nil => exact ⟨given, held⟩
  | cons pin pins ih =>
    have later : ∀ other ∈ pins, other.property = name → other.variant = variant :=
      fun other member => agree other (List.mem_cons_of_mem _ member)
    have step := propertyOf_applyTo pin name schema
    by_cases same : pin.property = name
    · rw [if_pos same, agree pin List.mem_cons_self same] at step
      exact ih later step
    · rw [if_neg same, held] at step
      exact ih later step

/-- A property pinned to one variant only ends as the slot of that variant. -/
theorem applyAll_slot {pins : List Pin} {pin : Pin} (member : pin ∈ pins)
    (agree : ∀ other ∈ pins, other.property = pin.property → other.variant = pin.variant)
    (schema : Schema) :
    ∃ given, propertyOf pin.property (applyAll pins schema) = some (slot pin.variant given) := by
  induction pins generalizing schema with
  | nil => cases member
  | cons first pins ih =>
    have later : ∀ other ∈ pins, other.property = pin.property → other.variant = pin.variant :=
      fun other member => agree other (List.mem_cons_of_mem _ member)
    rcases List.mem_cons.mp member with rfl | member
    · -- From here on every pin of the property writes the same variant again.
      have step := propertyOf_applyTo pin pin.property schema
      rw [if_pos rfl] at step
      rw [applyAll_cons]
      exact applyAll_keeps_slot later step
    · exact ih member later _

end Pin

/-- What normalization leaves under the key of a pin that no other pin contradicts. -/
theorem normalizeDiscriminators_slot {schemas normalized : List (String × Schema)} {pin : Pin}
    (made : (normalizeDiscriminators schemas).outcome = .ok normalized)
    (declared : pin.Declared schemas)
    (unrivalled : ∀ other : Pin, other.Declared schemas → other.key = pin.key →
      other.property = pin.property → other.variant = pin.variant) :
    ∃ variant node given, Entries.get? pin.key schemas = some variant ∧
      Entries.get? pin.key normalized = some node ∧
      { node with properties := none } = { variant with properties := none } ∧
      Pin.propertyOf pin.property node = some (Pin.slot pin.variant given) := by
  obtain ⟨pins, collected, rfl⟩ := normalizeDiscriminators_pins made
  have collects := Pin.collect_collects collected
  have member := (collects.mem pin).mpr declared
  obtain ⟨variant, held⟩ := Entries.get?_of_has (collects.known pin member)
  have own : pin ∈ pins.filter (·.key == pin.key) := by simp [member]
  obtain ⟨given, slotted⟩ := Pin.applyAll_slot own (fun other kept same => by
    obtain ⟨present, key⟩ := List.mem_filter.mp kept
    exact unrivalled other ((collects.mem other).mp present) (eq_of_beq key) same) variant
  refine ⟨variant, _, given, held, ?_, Pin.applyAll_undeclared _ variant, slotted⟩
  rw [Pin.get?_foldl_apply, held, Option.map_some]

end TypedClient
