import TypedClient.Proofs.Discriminator.Pins

/-!
Pins that meet in one place. Every pin of a place writes over the pins before it, so what stands there
after normalization is the literal of the last one, and it admits just the variants that no later pin of
the place contradicts.
-/
namespace TypedClient

/-- The text is one of the listed values. -/
def Schema.Admits (schema : Schema) (text : String) : Prop :=
  ∃ values, schema.enum = some values ∧ .text text ∈ values

namespace Pin

/-- Where the pin is written: a schema, and a property of it. -/
def place (pin : Pin) : String × String :=
  (pin.key, pin.property)

/-! ### The order of pins -/

/-- The pins of a mapping, in its order. -/
def ofEntries (property : String) (mapping : List (String × String)) : List Pin :=
  mapping.filterMap fun (variant, target) =>
    (keyOf target).toOption.map fun key => ⟨key, property, variant⟩

def declaredBy (schema : Schema) : List Pin :=
  match schema.discriminator with
  | some discriminator =>
    if schema.oneOf.isSome || schema.anyOf.isSome || schema.allOf.isSome then
      ofEntries discriminator.property discriminator.mapping
    else []
  | none => []

/-- All declared pins, in the order of the schemas and of their mappings. -/
def declarations (schemas : List (String × Schema)) : List Pin :=
  schemas.flatMap fun entry => declaredBy entry.2

/-- No later pin of the place is of another variant. -/
def Prevails (schemas : List (String × Schema)) (pin : Pin) : Prop :=
  ∃ earlier later, declarations schemas = earlier ++ pin :: later ∧
    ∀ other ∈ later, other.place = pin.place → other.variant = pin.variant

section Order

variable {schemas : List (String × Schema)} {pins : List Pin}

theorem ofMapping_eq {property : String} {mapping : List (String × String)}
    (made : ofMapping schemas property mapping = .ok pins) : ofEntries property mapping = pins := by
  induction mapping generalizing pins with
  | nil => exact Except.ok.inj made
  | cons entry rest ih =>
    obtain ⟨variant, target⟩ := entry
    obtain ⟨key, later, parsed, -, others, rfl⟩ := ofMapping_cons_ok made
    have named : (keyOf target).toOption = some key := by
      rw [parsed]
      rfl
    simp only [ofEntries, List.filterMap_cons, named, Option.map_some]
    exact congrArg _ (ih others)

theorem ofSchema_eq {schema : Schema} (made : ofSchema schemas schema = .ok pins) :
    declaredBy schema = pins := by
  unfold ofSchema at made
  unfold declaredBy
  cases given : schema.discriminator with
  | none =>
    rw [given] at made
    exact Except.ok.inj made
  | some discriminator =>
    rw [given] at made
    dsimp only at made ⊢
    split at made
    · rename_i composed
      rw [if_pos composed]
      exact ofMapping_eq made
    · rename_i alone
      rw [if_neg alone]
      exact Except.ok.inj made

theorem collect_eq {given : List (String × Schema)} (made : collect schemas given = .ok pins) :
    declarations given = pins := by
  induction given generalizing pins with
  | nil => exact Except.ok.inj made
  | cons entry rest ih =>
    obtain ⟨first, later, own, others, rfl⟩ := collect_cons_ok made
    have tail := ih others
    simp only [declarations] at tail
    simp only [declarations, List.flatMap_cons, ofSchema_eq own, tail]

end Order

/-! ### The last pin of a place -/

theorem exists_last {place : String × String} {pins : List Pin}
    (written : ∃ pin ∈ pins, pin.place = place) :
    ∃ earlier last later, pins = earlier ++ last :: later ∧ last.place = place ∧
      ∀ pin ∈ later, pin.place ≠ place := by
  induction pins with
  | nil =>
    obtain ⟨pin, member, -⟩ := written
    cases member
  | cons first pins ih =>
    by_cases again : ∃ pin ∈ pins, pin.place = place
    · obtain ⟨earlier, last, later, rfl, here, silent⟩ := ih again
      exact ⟨first :: earlier, last, later, rfl, here, silent⟩
    · have silent : ∀ pin ∈ pins, pin.place ≠ place := fun pin member same =>
        again ⟨pin, member, same⟩
      obtain ⟨pin, member, same⟩ := written
      rcases List.mem_cons.mp member with rfl | later
      · exact ⟨[], pin, pins, rfl, same, silent⟩
      · exact (silent pin later same).elim

/-- Where no later pin of its place is of another variant, a pin leaves its literal. -/
theorem foldl_apply_leaves (earlier : List Pin) {later : List Pin} {pin : Pin}
    {schemas : List (String × Schema)} (known : Entries.has pin.key schemas = true)
    (agree : ∀ other ∈ later, other.place = pin.place → other.variant = pin.variant) :
    ∃ node given, Entries.get? pin.key ((earlier ++ pin :: later).foldl apply schemas) = some node ∧
      propertyOf pin.property node = some (slot pin.variant given) := by
  obtain ⟨variant, held⟩ := Entries.get?_of_has known
  have own : ((earlier ++ pin :: later).filter (·.key == pin.key)) =
      earlier.filter (·.key == pin.key) ++ pin :: later.filter (·.key == pin.key) := by
    simp
  have written := propertyOf_applyTo pin pin.property (applyAll (earlier.filter (·.key == pin.key)) variant)
  rw [if_pos rfl] at written
  have kept : ∀ other ∈ later.filter (·.key == pin.key), other.property = pin.property →
      other.variant = pin.variant := by
    intro other member property
    obtain ⟨present, key⟩ := List.mem_filter.mp member
    exact agree other present (Prod.ext (eq_of_beq key) property)
  obtain ⟨given, slotted⟩ := applyAll_keeps_slot kept written
  refine ⟨_, given, ?_, slotted⟩
  rw [get?_foldl_apply, held, own]
  simp [applyAll]

end Pin

/-- Normalization leaves a literal in the place of every declared pin. It admits the variant of the pin
just if no later pin of the place is of another variant. -/
theorem normalizeDiscriminators_admits_iff {schemas normalized : List (String × Schema)} {pin : Pin}
    (made : (normalizeDiscriminators schemas).outcome = .ok normalized)
    (declared : pin.Declared schemas) :
    ∃ node property, Entries.get? pin.key normalized = some node ∧
      Pin.propertyOf pin.property node = some property ∧
      property.type = some (.single "string") ∧
      (property.Admits pin.variant ↔ pin.Prevails schemas) ∧
      ((∀ other : Pin, other.Declared schemas → other.place = pin.place →
          other.variant = pin.variant) →
        property.enum = some [.text pin.variant]) := by
  obtain ⟨pins, collected, rfl⟩ := normalizeDiscriminators_pins made
  have collects := Pin.collect_collects collected
  have ordered := Pin.collect_eq collected
  have member := (collects.mem pin).mpr declared
  obtain ⟨earlier, ⟨key, name, variant⟩, later, split, same, silent⟩ :=
    Pin.exists_last ⟨pin, member, rfl⟩
  obtain ⟨rfl, rfl⟩ := Prod.mk.inj same
  have last : (⟨pin.key, pin.property, variant⟩ : Pin) ∈ pins := by simp [split]
  obtain ⟨node, given, held, slotted⟩ := Pin.foldl_apply_leaves earlier (collects.known _ last)
    fun other present here => (silent other present here).elim
  rw [← split] at held
  refine ⟨node, _, held, slotted, rfl, ?_, ?_⟩
  · constructor
    · rintro ⟨values, listed, admitted⟩
      obtain rfl := Option.some.inj listed
      obtain rfl : pin.variant = variant := by simpa using admitted
      exact ⟨earlier, later, ordered.trans split, fun other present here =>
        (silent other present here).elim⟩
    · rintro ⟨earlier', later', split', agree⟩
      obtain ⟨node', given', held', slotted'⟩ := Pin.foldl_apply_leaves earlier'
        (collects.known pin member) agree
      rw [← split', ordered, held] at held'
      obtain rfl := Option.some.inj held'
      rw [slotted] at slotted'
      refine ⟨[.text pin.variant], ?_, List.mem_singleton_self _⟩
      exact congrArg (fun property : Schema => property.enum) (Option.some.inj slotted')
  · intro unrivalled
    have agrees := unrivalled _ ((collects.mem _).mp last) rfl
    exact congrArg (fun text => some [EnumValue.text text]) agrees

/-- Pets are animals, and dogs go by two names. -/
def animalSchemas : List (String × Schema) :=
  [("Animal", animal), ("Pet", pet), ("Dog", dog), ("Fish", { type := some (.single "object") })]
where
  reference (key : String) : Schema := { ref := some (Root.schema.stem ++ key) }
  animal : Schema := {
    oneOf := some [reference "Pet", reference "Fish"]
    discriminator := some { property := "class", mapping := [
      ("pet", "#/components/schemas/Pet"), ("fish", "Fish")] } }
  pet : Schema := {
    oneOf := some [reference "Dog"]
    discriminator := some { property := "kind", mapping := [
      ("dog", "#/components/schemas/Dog"), ("puppy", "Dog")] } }
  kind : Schema := { type := some (.single "string"), description := some "Pet kind" }
  dog : Schema := {
    type := some (.single "object")
    properties := some [("kind", kind), ("barks", { type := some (.single "boolean") })] }

def animalPins : List Pin :=
  [⟨"Pet", "class", "pet"⟩, ⟨"Fish", "class", "fish"⟩, ⟨"Dog", "kind", "dog"⟩,
    ⟨"Dog", "kind", "puppy"⟩]

theorem animalSchemas_pins : Pin.collect animalSchemas animalSchemas = .ok animalPins := by
  rfl

theorem animalSchemas_normalized : (normalizeDiscriminators animalSchemas).outcome =
    .ok (animalPins.foldl Pin.apply animalSchemas) := by
  rw [normalizeDiscriminators, animalSchemas_pins]

theorem animalPins_declared {pin : Pin} (member : pin ∈ animalPins) : pin.Declared animalSchemas :=
  ((Pin.collect_collects animalSchemas_pins).mem pin).mp member

/-- The second name of dogs is admitted. -/
theorem animalSchemas_admits : ∃ normalized node property,
    (normalizeDiscriminators animalSchemas).outcome = .ok normalized ∧
      Entries.get? "Dog" normalized = some node ∧ Pin.propertyOf "kind" node = some property ∧
      property.Admits "puppy" := by
  have declared : (⟨"Dog", "kind", "puppy"⟩ : Pin).Declared animalSchemas :=
    animalPins_declared (by simp [animalPins])
  obtain ⟨node, property, held, slotted, -, admits, -⟩ :=
    normalizeDiscriminators_admits_iff animalSchemas_normalized declared
  have prevails : (⟨"Dog", "kind", "puppy"⟩ : Pin).Prevails animalSchemas :=
    ⟨animalPins.take 3, [], Pin.collect_eq animalSchemas_pins, fun _ none => nomatch none⟩
  exact ⟨_, node, property, animalSchemas_normalized, held, slotted, admits.mpr prevails⟩

/-- The first name of dogs is lost, though it is declared. -/
theorem animalSchemas_overwritten : ∃ (pin : Pin) (normalized : List (String × Schema))
    (node property : Schema), (normalizeDiscriminators animalSchemas).outcome = .ok normalized ∧
      pin.Declared animalSchemas ∧ Entries.get? pin.key normalized = some node ∧
      Pin.propertyOf pin.property node = some property ∧ ¬property.Admits pin.variant := by
  refine ⟨⟨"Dog", "kind", "dog"⟩, _, _, Pin.slot "puppy" animalSchemas.kind,
    animalSchemas_normalized, animalPins_declared (by simp [animalPins]), rfl, rfl, ?_⟩
  rintro ⟨values, listed, admitted⟩
  obtain rfl := Option.some.inj listed
  simp at admitted

end TypedClient
