import TypedClient.Proofs.Discriminator.Replay

/-!
What normalization leaves alone. A run on a map where it stands fails before its first write, or it
writes all pins. A write reaches the properties of one schema and keeps their order: it changes the
pinned property in its place, or adds it at the end.
-/
namespace TypedClient
namespace Pin

/-! ### Properties -/

/-- The property stays, or a pin of its place leaves it the description and the null flag. -/
structure Rewrites (written : Pin → Prop) (key : String) (before after : String × Schema) : Prop where
  name : after.1 = before.1
  description : after.2.description = before.2.description
  nullable : after.2.nullable = before.2.nullable
  value : after.2 = before.2 ∨
    ∃ pin : Pin, written pin ∧ pin.place = (key, before.1) ∧ after.2 = slot pin.variant before.2

/-- The property is there for a pin of its place only. -/
def Adds (written : Pin → Prop) (key : String) (entry : String × Schema) : Prop :=
  ∃ pin : Pin, written pin ∧ pin.place = (key, entry.1) ∧ entry.2 = slot pin.variant {}

/-- What was there keeps its place, and what is new follows. -/
def Redeclares (written : Pin → Prop) (key : String) (before after : List (String × Schema)) : Prop :=
  ∃ held added, after = held ++ added ∧ List.Forall₂ (Rewrites written key) before held ∧
    ∀ entry ∈ added, Entries.has entry.1 before = false ∧ Adds written key entry

section Properties

variable {written : Pin → Prop} {key : String}

theorem Rewrites.refl (entry : String × Schema) : Rewrites written key entry entry :=
  ⟨rfl, rfl, rfl, .inl rfl⟩

theorem rewrites_slot {pin : Pin} (given : written pin) (property : Schema) :
    Rewrites written pin.key (pin.property, property) (pin.property, slot pin.variant property) :=
  ⟨rfl, rfl, rfl, .inr ⟨pin, given, rfl, rfl⟩⟩

theorem Rewrites.trans {first second third : String × Schema} (earlier : Rewrites written key first second)
    (later : Rewrites written key second third) : Rewrites written key first third where
  name := later.name.trans earlier.name
  description := later.description.trans earlier.description
  nullable := later.nullable.trans earlier.nullable
  value := by
    rcases later.value with kept | ⟨pin, given, place, pinned⟩
    · rw [kept]
      exact earlier.value
    · refine .inr ⟨pin, given, earlier.name ▸ place, ?_⟩
      -- A slot takes nothing but the description and the null flag of what it replaces.
      rw [pinned, slot, slot, earlier.description, earlier.nullable]

theorem Adds.rewrites {before after : String × Schema} (adds : Adds written key before)
    (rewrites : Rewrites written key before after) : Adds written key after := by
  obtain ⟨pin, given, place, fresh⟩ := adds
  rcases rewrites.value with kept | ⟨other, given', place', pinned⟩
  · exact ⟨pin, given, rewrites.name ▸ place, kept.trans fresh⟩
  · refine ⟨other, given', rewrites.name ▸ place', ?_⟩
    rw [pinned, fresh]
    rfl

theorem Redeclares.refl (properties : List (String × Schema)) :
    Redeclares written key properties properties :=
  ⟨properties, [], (List.append_nil _).symm, List.forall₂_same.mpr fun entry _ => .refl entry,
    fun _ none => nomatch none⟩

theorem Redeclares.trans {first second third : List (String × Schema)}
    (earlier : Redeclares written key first second) (later : Redeclares written key second third) :
    Redeclares written key first third := by
  obtain ⟨held, added, rfl, kept, fresh⟩ := earlier
  obtain ⟨again, more, rfl, related, newer⟩ := later
  obtain ⟨held', added', rfl, heldKept, addedKept⟩ := InStep.split related
  refine ⟨held', added' ++ more, List.append_assoc .., InStep.trans (fun _ _ _ => .trans) kept heldKept, ?_⟩
  refine List.forall_mem_append.mpr ⟨fun entry member => ?_, fun entry member => ?_⟩
  · obtain ⟨original, present, rewrites⟩ := InStep.left_of_right addedKept member
    obtain ⟨absent, adds⟩ := fresh original present
    exact ⟨rewrites.name ▸ absent, adds.rewrites rewrites⟩
  · obtain ⟨absent, adds⟩ := newer entry member
    have keys := InStep.map_eq kept fun _ _ rewrites => rewrites.name.symm
    rw [Entries.has_append, Bool.or_eq_false_iff] at absent
    exact ⟨(Entries.has_congr keys entry.1).trans absent.1, adds⟩

theorem redeclares_alter {pin : Pin} (given : written pin) (properties : List (String × Schema)) :
    Redeclares written pin.key properties
      (Entries.alter pin.property (fun held => slot pin.variant (held.getD {})) properties) := by
  have kept (entries : List (String × Schema)) :
      List.Forall₂ (Rewrites written pin.key) entries entries :=
    List.forall₂_same.mpr fun entry _ => .refl entry
  rcases Entries.alter_cases pin.property (fun held => slot pin.variant (held.getD {})) properties with
    ⟨front, property, back, rfl, changed⟩ | ⟨absent, added⟩
  · rw [changed]
    refine ⟨_, [], (List.append_nil _).symm, ?_, fun _ none => nomatch none⟩
    exact List.rel_append (kept front) (.cons (rewrites_slot given property) (kept back))
  · rw [added]
    refine ⟨properties, _, rfl, kept properties, fun entry member => ?_⟩
    obtain rfl := List.mem_singleton.mp member
    exact ⟨absent, pin, given, rfl, rfl⟩

end Properties

/-! ### Schemas -/

/-- Under the same key the schema stays if no pin is written there, and otherwise it changes in its
properties only. -/
structure Frames (written : Pin → Prop) (before after : String × Schema) : Prop
    extends Spares before after where
  unnamed : (∀ pin : Pin, written pin → pin.key ≠ before.1) → after.2 = before.2
  properties : Redeclares written before.1 (before.2.properties.getD []) (after.2.properties.getD [])

section Schemas

variable {written : Pin → Prop}

theorem Frames.refl (entry : String × Schema) : Frames written entry entry :=
  ⟨.refl entry, fun _ => rfl, .refl _⟩

theorem frames_applyTo {pin : Pin} (given : written pin) (schema : Schema) :
    Frames written (pin.key, schema) (pin.key, pin.applyTo schema) where
  toSpares := spares_applyTo pin pin.key schema
  unnamed none := (none pin given rfl).elim
  properties := redeclares_alter given _

theorem Frames.trans {first second third : String × Schema} (earlier : Frames written first second)
    (later : Frames written second third) : Frames written first third where
  toSpares := earlier.toSpares.trans later.toSpares
  unnamed none := by
    have untouched : ∀ pin : Pin, written pin → pin.key ≠ second.1 := earlier.key ▸ none
    exact (later.unnamed untouched).trans (earlier.unnamed none)
  properties := earlier.properties.trans (earlier.key ▸ later.properties)

theorem foldl_apply_frames {pins : List Pin} (given : ∀ pin ∈ pins, written pin)
    (schemas : List (String × Schema)) :
    List.Forall₂ (Frames written) schemas (pins.foldl apply schemas) :=
  foldl_apply_related Frames.refl (fun pin member => frames_applyTo (given pin member))
    (fun _ _ _ => .trans) schemas

end Schemas

/-! ### Runs in place -/

theorem writeAll_run (pins : List Pin) (draft : Draft) :
    (writeAll pins).run draft =
      ((), ⟨pins.foldl apply draft.schemas, draft.events ++ pins.map event⟩) := by
  induction pins generalizing draft with
  | nil =>
    rw [List.map_nil, List.append_nil]
    rfl
  | cons pin pins ih =>
    have step : (writeAll (pin :: pins)).run draft =
        (writeAll pins).run ⟨apply draft.schemas pin, draft.events ++ [pin.event]⟩ := rfl
    rw [step, ih, List.append_assoc]
    rfl

end Pin

section InPlace

variable {draft : Draft}

theorem normalizeInPlace_failed {cause : ReferenceError}
    (collected : Pin.collect draft.schemas draft.schemas = .error cause) :
    normalizeInPlace.run draft = (.error cause, draft) := by
  simp only [normalizeInPlace, StateT.run_bind, StateT.run_get, pure_bind, collected]
  rfl

theorem normalizeInPlace_pinned {pins : List Pin}
    (collected : Pin.collect draft.schemas draft.schemas = .ok pins) :
    normalizeInPlace.run draft =
      (.ok (), ⟨pins.foldl Pin.apply draft.schemas, draft.events ++ pins.map Pin.event⟩) := by
  simp only [normalizeInPlace, StateT.run_bind, StateT.run_get, pure_bind, collected, Pin.writeAll_run]
  rfl

end InPlace

/-- A run in place gives what normalization gives. It leaves the map as it was if it fails, and otherwise
all entries stay where they are, pins are written to the schemas that they name and nothing else is. -/
theorem normalizeInPlace_frames {schemas : List (String × Schema)} {outcome : Except ReferenceError Unit}
    {draft : Draft} (run : normalizeInPlace.run { schemas } = (outcome, draft)) :
    normalizeDiscriminators schemas = ⟨draft.events, outcome.map fun _ => draft.schemas⟩ ∧
      (∀ cause, outcome = .error cause → draft.schemas = schemas) ∧
      (outcome = .ok () →
        List.Forall₂ (Pin.Frames (Pin.Declared schemas)) schemas draft.schemas ∧
          ∀ pin : Pin, pin.Declared schemas → ∃ node, Entries.get? pin.key draft.schemas = some node ∧
            Entries.has pin.property (node.properties.getD []) = true) := by
  cases collected : Pin.collect schemas schemas with
  | error cause =>
    rw [normalizeInPlace_failed collected] at run
    obtain ⟨rfl, rfl⟩ := Prod.mk.inj run
    refine ⟨?_, fun _ _ => rfl, fun succeeded => ?_⟩
    · rw [normalizeDiscriminators, collected]
      rfl
    · cases succeeded
  | ok pins =>
    rw [normalizeInPlace_pinned collected, List.nil_append] at run
    obtain ⟨rfl, rfl⟩ := Prod.mk.inj run
    have collects := Pin.collect_collects collected
    refine ⟨?_, fun cause failed => ?_, fun _ => ⟨?_, fun pin declared => ?_⟩⟩
    · rw [normalizeDiscriminators, collected]
      rfl
    · cases failed
    · exact Pin.foldl_apply_frames (fun pin member => (collects.mem pin).mp member) schemas
    · have member := (collects.mem pin).mpr declared
      have known : Entries.has pin.key (pins.foldl Pin.apply schemas) = true :=
        (Pin.has_foldl_apply pins schemas pin.key).trans (collects.known pin member)
      obtain ⟨node, held⟩ := Entries.get?_of_has known
      exact ⟨node, held, Pin.present_foldl_apply member node held⟩

/-- Without fish the mapping of animals dangles, after the pin of pets was found. -/
theorem animalSchemas_frames :
    (∃ draft, normalizeInPlace.run { schemas := animalSchemas } = (.ok (), draft) ∧
        List.Forall₂ (Pin.Frames (Pin.Declared animalSchemas)) animalSchemas draft.schemas) ∧
      ∃ draft, normalizeInPlace.run { schemas := animalSchemas.take 3 } =
          (.error (.dangling "Fish"), draft) ∧
        draft.schemas = animalSchemas.take 3 := by
  have pinned : normalizeInPlace.run { schemas := animalSchemas } =
      (.ok (), ⟨animalPins.foldl Pin.apply animalSchemas, animalPins.map Pin.event⟩) :=
    normalizeInPlace_pinned animalSchemas_pins
  have dangling : Pin.collect (animalSchemas.take 3) (animalSchemas.take 3) =
      .error (.dangling "Fish") := by
    rfl
  have failed : normalizeInPlace.run { schemas := animalSchemas.take 3 } =
      (.error (.dangling "Fish"), { schemas := animalSchemas.take 3 }) :=
    normalizeInPlace_failed dangling
  obtain ⟨-, -, frames⟩ := normalizeInPlace_frames pinned
  obtain ⟨-, unchanged, -⟩ := normalizeInPlace_frames failed
  exact ⟨⟨_, pinned, (frames rfl).1⟩, _, failed, unchanged _ rfl⟩

end TypedClient
