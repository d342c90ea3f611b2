import TypedClient.Proofs.Discriminator.Pins
import TypedClient.Proofs.Synthesis.Definitions
import TypedClient.Proofs.TypeExpr.Canonical

/-!
Whether a pinned property reaches the definition of its variant. It does so where the properties of the
variant are read at all. Under every other shape the pin is lost and the definition is as before.
-/
namespace TypedClient

/-! ### Tagged types -/

namespace TypeExpr

/-- The type without its null wrapper. -/
def bare : TypeExpr → TypeExpr
  | .nullable inner => inner
  | type => type

/-- The members of an intersection. Any other type is its own only member. -/
def conjuncts : TypeExpr → List TypeExpr
  | .intersection members => members
  | type => [type]

/-- The field of this name holds the variant, or null where it may. -/
def FieldsTagged (property variant : String) (fields : List (Field TypeExpr)) : Prop :=
  ∃ field, fields.find? (·.name == property) = some field ∧ field.type.bare = .literals [variant]

/-- An object of the type has the variant under the property. -/
def Tagged (property variant : String) (type : TypeExpr) : Prop :=
  ∃ fields index, .object fields index ∈ type.bare.conjuncts ∧ FieldsTagged property variant fields

@[simp] theorem bare_orNull (type : TypeExpr) : type.orNull.bare = type.bare := by
  cases type <;> rfl

@[simp] theorem bare_orNullIf (nullable : Bool) (type : TypeExpr) :
    (Schema.orNullIf nullable type).bare = type.bare := by
  unfold Schema.orNullIf
  split
  · exact bare_orNull type
  · rfl

theorem literals_of_same {values : List String} {type : TypeExpr}
    (equal : same (.literals values) type = true) : type = .literals values := by
  cases type <;> simp [same] at equal
  rw [equal]

theorem bare_literals_of_same {values : List String} {type other : TypeExpr}
    (equal : same type other = true) (literal : type.bare = .literals values) :
    other.bare = .literals values := by
  cases type with
  | nullable inner =>
    obtain rfl : inner = .literals values := literal
    cases other <;> simp only [same, Bool.false_eq_true] at equal
    exact literals_of_same equal
  | literals held =>
    obtain rfl : held = values := literals.inj literal
    rw [literals_of_same equal]
    rfl
  | _ => cases literal

theorem object_of_same {fields : List (Field TypeExpr)} {index : Option TypeExpr} {type : TypeExpr}
    (equal : same (.object fields index) type = true) :
    ∃ fields' index', type = .object fields' index' ∧ List.Forall₂ FieldsAlike fields fields' := by
  cases type <;> simp only [same, Bool.false_eq_true, Bool.and_eq_true] at equal
  exact ⟨_, _, rfl, sameFields_iff.mp equal.1⟩

section Fields

variable {property variant : String} {fields : List (Field TypeExpr)}

theorem FieldsTagged.of_alike {others : List (Field TypeExpr)}
    (alike : List.Forall₂ FieldsAlike fields others) (tagged : FieldsTagged property variant fields) :
    FieldsTagged property variant others := by
  obtain ⟨field, found, literal⟩ := tagged
  induction alike with
  | nil => cases found
  | @cons first first' rest rest' head _ ih =>
    obtain ⟨name, types, -⟩ := head
    by_cases here : first.name = property
    · rw [List.find?_cons_of_pos (by simp [here])] at found
      obtain rfl := Option.some.inj found
      refine ⟨first', List.find?_cons_of_pos (by simp [← name, here]), ?_⟩
      exact bare_literals_of_same types literal
    · rw [List.find?_cons_of_neg (by simp [here])] at found
      obtain ⟨field', found', literal'⟩ := ih found
      exact ⟨field', (List.find?_cons_of_neg (by simp [← name, here])).trans found', literal'⟩

theorem FieldsTagged.object {index : Option TypeExpr} (tagged : FieldsTagged property variant fields) :
    (TypeExpr.object fields index).Tagged property variant :=
  ⟨fields, index, List.mem_singleton_self _, tagged⟩

/-- A tagged object stays in an intersection, if not itself then in a member that is the same. -/
theorem FieldsTagged.intersectionOf {index : Option TypeExpr} {types : List TypeExpr}
    (tagged : FieldsTagged property variant fields) (member : .object fields index ∈ types) :
    (TypeExpr.intersectionOf types).Tagged property variant := by
  obtain ⟨kept, present, equal⟩ := mem_distinct_of_mem member
  obtain ⟨fields', index', rfl, alike⟩ := object_of_same (same_of_same equal)
  have tagged' := tagged.of_alike alike
  unfold TypeExpr.intersectionOf
  -- A member that is left alone stands for the intersection.
  match distinct same types, present with
  | [_], present =>
    obtain rfl := List.mem_singleton.mp present
    exact tagged'.object
  | first :: second :: rest, present => exact ⟨fields', index', present, tagged'⟩

end Fields

theorem Tagged.orNullIf {property variant : String} {type : TypeExpr}
    (tagged : type.Tagged property variant) (nullable : Bool) :
    (Schema.orNullIf nullable type).Tagged property variant := by
  unfold Tagged
  rw [bare_orNullIf]
  exact tagged

end TypeExpr

/-! ### Nodes whose properties are read -/

namespace Schema

variable {resolver : Resolver} {schema : Schema}

/-- Properties are read from nodes with `allOf`, and from nodes without composition whose type is left
open or is `object`. -/
def ReadsProperties (schema : Schema) : Prop :=
  schema.ref = none ∧ (schema.allOf.isSome ∨ schema.oneOf = none ∧ schema.anyOf = none ∧
    (schema.nonNullTypes = [] ∨ schema.nonNullTypes = ["object"]))

theorem ReadsProperties.shape {properties : List (String × Schema)} (reads : schema.ReadsProperties)
    (declared : schema.properties = some properties) :
    schema.shape = .composite .allOf ∨ schema.shape = .object := by
  obtain ⟨plain, all | ⟨one, any, types⟩⟩ := reads
  · exact .inl (by simp [Schema.shape, plain, all])
  · cases given : schema.allOf with
    | some members => exact .inl (by simp [Schema.shape, plain, given])
    | none =>
      refine .inr ?_
      rcases types with untyped | object <;>
        simp [Schema.shape, untypedShape, *]

theorem shape_undeclared (unread : ¬schema.ReadsProperties) :
    { schema with properties := none }.shape = schema.shape ∧
      schema.shape ≠ .composite .allOf ∧ schema.shape ≠ .object := by
  cases plain : schema.ref with
  | some target => simp [shape, plain]
  | none =>
    have all : schema.allOf = none := by
      cases given : schema.allOf with
      | none => rfl
      | some members => exact (unread ⟨plain, .inl (by simp [given])⟩).elim
    by_cases one : schema.oneOf = none
    · by_cases any : schema.anyOf = none
      · have typed : schema.nonNullTypes ≠ [] ∧ schema.nonNullTypes ≠ ["object"] :=
          not_or.mp fun types => unread ⟨plain, .inr ⟨one, any, types⟩⟩
        unfold shape
        simp only [plain, all, one, any, Option.isSome_none, Bool.false_eq_true, if_false]
        split
        · rename_i none
          exact (typed.1 none).elim
        · simp
        · rename_i object
          exact (typed.2 object).elim
        · simp
        · simp
      · obtain ⟨members, given⟩ := Option.ne_none_iff_exists'.mp any
        simp [shape, plain, all, one, given]
    · obtain ⟨members, given⟩ := Option.ne_none_iff_exists'.mp one
      simp [shape, plain, all, given]

/-- Synthesis does not see the properties of the other nodes. -/
theorem synthesize_undeclared (unread : ¬schema.ReadsProperties) (place : String) :
    synthesize resolver place { schema with properties := none } =
      synthesize resolver place schema := by
  obtain ⟨same, notAll, notObject⟩ := shape_undeclared unread
  obtain ⟨facets, properties, items, allOf, oneOf, anyOf, additional⟩ := schema
  rw [synthesize, synthesize]
  dsimp only at same ⊢
  rw [same]
  split <;> first | rfl | contradiction

theorem slot_tagged {variant : String} {given : Schema} {type : TypeExpr}
    (typed : HasType resolver (Pin.slot variant given) type) : type.bare = .literals [variant] := by
  have shape : (Pin.slot variant given).shape = .primitive "string" := rfl
  obtain ⟨core, formed, rfl⟩ := typed.formed
  rw [TypeExpr.bare_orNullIf]
  cases formed with
  | primitive shape' =>
    obtain rfl := Shape.primitive.inj (shape.symm.trans shape')
    rfl
  | reference shape' | union shape' | intersection shape' | extension shape' | array shape' | map shape'
  | object shape' | kinds shape' | empty shape' => cases shape.symm.trans shape'

theorem fieldsTagged_of_slot {required : List String} {opened : Bool}
    {properties : List (String × Schema)} {fields : List (Field TypeExpr)} {property variant : String}
    {given : Schema} (typed : List.Forall₂ (FieldTyped resolver required opened) properties fields)
    (slotted : Entries.get? property properties = some (Pin.slot variant given)) :
    TypeExpr.FieldsTagged property variant fields := by
  induction typed with
  | nil => cases slotted
  | @cons entry field rest fields head _ ih =>
    obtain ⟨name, node⟩ := entry
    rw [Entries.get?_cons] at slotted
    split at slotted
    · rename_i here
      obtain rfl := Option.some.inj slotted
      exact ⟨field, List.find?_cons_of_pos (by simp [head.name, here]), slot_tagged head.type⟩
    · rename_i other
      obtain ⟨found, first, literal⟩ := ih slotted
      exact ⟨found, (List.find?_cons_of_neg (by simp [head.name, other])).trans first, literal⟩

theorem HasType.tagged {property variant : String} {given : Schema} {type : TypeExpr}
    (typed : HasType resolver schema type) (reads : schema.ReadsProperties)
    (slotted : Pin.propertyOf property schema = some (Pin.slot variant given)) :
    type.Tagged property variant := by
  cases declared : schema.properties with
  | none =>
    rw [Pin.propertyOf, declared] at slotted
    cases slotted
  | some properties =>
    rw [Pin.propertyOf, declared] at slotted
    have shape := reads.shape declared
    obtain ⟨core, formed, rfl⟩ := typed.formed
    refine TypeExpr.Tagged.orNullIf ?_ _
    cases formed with
    | object _ declared' _ fields =>
      obtain rfl := Option.some.inj (declared.symm.trans declared')
      exact (fieldsTagged_of_slot fields slotted).object
    | extension _ declared' _ _ fields =>
      obtain rfl := Option.some.inj (declared.symm.trans declared')
      refine TypeExpr.Tagged.orNullIf ?_ _
      exact (fieldsTagged_of_slot fields slotted).intersectionOf
        (List.mem_append_right _ (List.mem_singleton_self _))
    | map _ undeclared => cases declared.symm.trans undeclared
    | intersection _ undeclared => cases declared.symm.trans undeclared
    | union shape' alternative =>
      rcases shape with shape | shape
      · exact (alternative (Shape.composite.inj (shape'.symm.trans shape))).elim
      · cases shape'.symm.trans shape
    | reference shape' | array shape' | primitive shape' | kinds shape' | empty shape' =>
      rcases shape with shape | shape <;> cases shape'.symm.trans shape

end Schema

namespace Component

theorem schemaDefinition_undeclared {resolver : Resolver} {schema : Schema}
    (unread : ¬schema.ReadsProperties) (key : String) :
    schemaDefinition resolver key { schema with properties := none } =
      schemaDefinition resolver key schema := by
  unfold schemaDefinition
  dsimp only
  rw [Schema.synthesize_undeclared unread]

end Component

/-- A pin that no other contradicts tags the definition of its schema, where properties of the schema
are read, and otherwise leaves the definition as it is. -/
theorem normalizeDiscriminators_tags {schemas normalized : List (String × Schema)} {pin : Pin}
    (made : (normalizeDiscriminators schemas).outcome = .ok normalized)
    (declared : pin.Declared schemas)
    (unrivalled : ∀ other : Pin, other.Declared schemas → other.key = pin.key →
      other.property = pin.property → other.variant = pin.variant) :
    ∃ variant node, Entries.get? pin.key schemas = some variant ∧
      Entries.get? pin.key normalized = some node ∧
      ∀ resolver : Resolver,
        (variant.ReadsProperties → ∀ definition,
          (Component.schemaDefinition resolver pin.key node).outcome = .ok definition →
            definition.type.Tagged pin.property pin.variant) ∧
        (¬variant.ReadsProperties →
          Component.schemaDefinition resolver pin.key node =
            Component.schemaDefinition resolver pin.key variant) := by
  obtain ⟨variant, node, given, before, after, same, slotted⟩ :=
    normalizeDiscriminators_slot made declared unrivalled
  have reads : node.ReadsProperties = variant.ReadsProperties := by
    have read := congrArg Schema.ReadsProperties same
    exact read
  refine ⟨variant, node, before, after, fun resolver => ?_⟩
  refine ⟨fun read definition defined => ?_, fun unread => ?_⟩
  · cases Component.schemaDefinition_defines defined with
    | schema typed => exact typed.tagged (reads ▸ read) slotted
  · -- Both nodes are defined as the one node without properties is.
    rw [← Component.schemaDefinition_undeclared (reads ▸ unread), same,
      Component.schemaDefinition_undeclared unread]

/-- Pets are cats and dogs, and cats are lions and tigers. -/
def petSchemas : List (String × Schema) :=
  [("Pet", pet), ("Cat", cat), ("Dog", object), ("Lion", object), ("Tiger", object)]
where
  reference (path : String) : Schema := { ref := some path }
  object : Schema := { type := some (.single "object") }
  cat : Schema :=
    { oneOf := some [reference "#/components/schemas/Lion", reference "#/components/schemas/Tiger"] }
  pet : Schema := {
    oneOf := some [reference "#/components/schemas/Cat", reference "#/components/schemas/Dog"]
    discriminator := some { property := "kind", mapping := [
      ("cat", "#/components/schemas/Cat"), ("dog", "#/components/schemas/Dog")] } }

def petPins : List Pin :=
  [⟨"Cat", "kind", "cat"⟩, ⟨"Dog", "kind", "dog"⟩]

theorem petSchemas_pins : Pin.collect petSchemas petSchemas = .ok petPins := by
  rfl

theorem petSchemas_normalized :
    (normalizeDiscriminators petSchemas).outcome = .ok (petPins.foldl Pin.apply petSchemas) := by
  rw [normalizeDiscriminators, petSchemas_pins]

theorem petPins_unrivalled : ∀ pin ∈ petPins, ∀ other : Pin, other.Declared petSchemas →
    other.key = pin.key → other.property = pin.property → other.variant = pin.variant := by
  intro pin member other declared key _
  have distinct : petPins.Pairwise fun pin other => pin.key ≠ other.key := by decide
  have present := ((Pin.collect_collects petSchemas_pins).mem other).mpr declared
  rw [List.inj_on_of_nodup_map (List.pairwise_map.mpr distinct) present member key]

theorem petPins_declared {pin : Pin} (member : pin ∈ petPins) : pin.Declared petSchemas :=
  ((Pin.collect_collects petSchemas_pins).mem pin).mp member

theorem petSchemas_tags : ∃ normalized node definition,
    (normalizeDiscriminators petSchemas).outcome = .ok normalized ∧
      Entries.get? "Dog" normalized = some node ∧
      (Component.schemaDefinition ⟨{}, normalized⟩ "Dog" node).outcome = .ok definition ∧
      definition.type.Tagged "kind" "dog" := by
  have member : ⟨"Dog", "kind", "dog"⟩ ∈ petPins := by simp [petPins]
  obtain ⟨variant, node, before, after, reaches⟩ := normalizeDiscriminators_tags
    petSchemas_normalized (petPins_declared member) (petPins_unrivalled _ member)
  have reads : petSchemas.object.ReadsProperties := ⟨rfl, .inr ⟨rfl, rfl, .inr rfl⟩⟩
  obtain rfl : petSchemas.object = variant := Option.some.inj before
  have defined : ((Entries.get? "Dog" (petPins.foldl Pin.apply petSchemas)).map fun node =>
      (Component.schemaDefinition ⟨{}, petPins.foldl Pin.apply petSchemas⟩ "Dog" node).outcome.isOk) =
        some true := by
    decide +kernel
  rw [after] at defined
  obtain ⟨definition, defined⟩ := exists_ok (Option.some.inj defined)
  exact ⟨_, node, definition, petSchemas_normalized, after, defined, (reaches _).1 reads _ defined⟩

/-- The pin of cats is lost, though no other contradicts it. -/
theorem petSchemas_untagged : ∃ (pin : Pin) (normalized : List (String × Schema)) (node : Schema)
    (definition : Definition),
    (normalizeDiscriminators petSchemas).outcome = .ok normalized ∧ pin.Declared petSchemas ∧
      (∀ other : Pin, other.Declared petSchemas → other.key = pin.key →
        other.property = pin.property → other.variant = pin.variant) ∧
      Entries.get? pin.key normalized = some node ∧
      (Component.schemaDefinition ⟨{}, normalized⟩ pin.key node).outcome = .ok definition ∧
      ¬definition.type.Tagged pin.property pin.variant := by
  have member : ⟨"Cat", "kind", "cat"⟩ ∈ petPins := by simp [petPins]
  have after : Entries.get? "Cat" (petPins.foldl Pin.apply petSchemas) =
      some (Pin.applyTo ⟨"Cat", "kind", "cat"⟩ petSchemas.cat) := by
    rw [Pin.get?_foldl_apply]
    rfl
  refine ⟨_, _, _, ⟨"Cat", .union [.named "Lion", .named "Tiger"], none⟩, petSchemas_normalized,
    petPins_declared member, petPins_unrivalled _ member, after, ?_, ?_⟩
  · rfl
  · rintro ⟨fields, index, member, -⟩
    cases List.mem_singleton.mp member

end TypedClient
