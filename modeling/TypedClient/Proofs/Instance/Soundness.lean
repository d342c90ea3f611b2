import TypedClient.Proofs.Instance.Meaning
import TypedClient.Proofs.Synthesis.Typing
import TypedClient.Proofs.TypeExpr.Distinct

/-!
Types admit their instances: every value that a schema accepts belongs to the type synthesized for it.
The induction is on the schema. Each way of building a type keeps the values of its parts, and leaving
repetitions out of a union or an intersection loses none.
-/
namespace TypedClient

variable {meaning : String → Set Instance}

namespace TypeExpr

/-! ### Values of built types -/

/-- Types that are equal but for descriptions have the same values. -/
theorem Belongs.of_same {type type' : TypeExpr} {value : Instance}
    (belongs : Belongs meaning type' value) (equal : same type type' = true) :
    Belongs meaning type value := by
  induction belongs generalizing type with
  | number | string | boolean | any | unknown =>
    cases type <;> simp [same] at equal
    subst equal
    constructor
  | literal listed =>
    cases type <;> simp [same] at equal
    subst equal
    exact .literal listed
  | named present =>
    cases type <;> simp [same] at equal
    subst equal
    exact .named present
  | array _ ih =>
    cases type <;> simp only [same, Bool.false_eq_true] at equal
    exact .array fun item member => ih item member equal
  | anything value =>
    cases type <;> simp only [same, Bool.false_eq_true, Bool.and_eq_true] at equal
    rename_i fields index
    have none : fields = [] := List.forall₂_nil_right_iff.mp (sameFields_iff.mp equal.1)
    cases index with
    | none => exact none ▸ .anything value
    | some type => simp [sameIndex] at equal
  | object required _ _ known others =>
    cases type <;> simp only [same, Bool.false_eq_true, Bool.and_eq_true] at equal
    rename_i fields index
    have alike := sameFields_iff.mp equal.1
    refine .object (fun field present mandatory => ?_) (fun field present value held => ?_)
      (fun type opened entry held fresh => ?_)
    · obtain ⟨field', present', name, -, optional⟩ := InStep.right_of_left alike present
      exact name ▸ required field' present' (optional ▸ mandatory)
    · obtain ⟨field', present', name, types, -⟩ := InStep.right_of_left alike present
      exact known field' present' value (name ▸ held) types
    · have names := InStep.map_eq alike fun _ _ fields => fields.1
      obtain ⟨type', opened', types⟩ := same_of_sameIndex equal.2 opened
      exact others type' opened' entry held (names ▸ fresh) types
  | union present _ ih =>
    cases type <;> simp only [same, Bool.false_eq_true] at equal
    obtain ⟨member, present, types⟩ := InStep.left_of_right (sameAll_iff.mp equal) present
    exact .union present (ih types)
  | intersection _ ih =>
    cases type <;> simp only [same, Bool.false_eq_true] at equal
    refine .intersection fun member present => ?_
    obtain ⟨member', present', types⟩ := InStep.right_of_left (sameAll_iff.mp equal) present
    exact ih member' present' types
  | null =>
    cases type <;> simp only [same, Bool.false_eq_true] at equal
    exact .null
  | inner _ ih =>
    cases type <;> simp only [same, Bool.false_eq_true] at equal
    exact .inner (ih equal)

theorem Belongs.of_unionMembers {type : TypeExpr} {value : Instance}
    (belongs : Belongs meaning type value) :
    ∃ member ∈ type.unionMembers, Belongs meaning member value := by
  cases type with
  | union members =>
    cases belongs with
    | union present belongs => exact ⟨_, present, belongs⟩
  | _ => exact ⟨_, List.mem_singleton_self _, belongs⟩

theorem Belongs.collapse_union {members : List TypeExpr} {member : TypeExpr} {value : Instance}
    (present : member ∈ members) (belongs : Belongs meaning member value) :
    Belongs meaning (collapse .union members) value := by
  match members with
  | [] => cases present
  | [single] =>
    obtain rfl := List.mem_singleton.mp present
    exact belongs
  | _ :: _ :: _ => exact .union present belongs

theorem Belongs.collapse_intersection {members : List TypeExpr} {value : Instance}
    (each : ∀ member ∈ members, Belongs meaning member value) :
    Belongs meaning (collapse .intersection members) value := by
  match members with
  | [] => exact .any value
  | [single] => exact each single List.mem_cons_self
  | _ :: _ :: _ => exact .intersection each

theorem Belongs.unionOf {types : List TypeExpr} {type : TypeExpr} {value : Instance}
    (present : type ∈ types) (belongs : Belongs meaning type value) :
    Belongs meaning (unionOf types) value := by
  obtain ⟨member, inside, belongs⟩ := belongs.of_unionMembers
  obtain ⟨kept, stays, equal⟩ := mem_distinct_of_mem (List.mem_flatMap.mpr ⟨type, present, inside⟩)
  exact .collapse_union stays (belongs.of_same equal)

theorem Belongs.intersectionOf {types : List TypeExpr} {value : Instance}
    (each : ∀ type ∈ types, Belongs meaning type value) :
    Belongs meaning (intersectionOf types) value :=
  .collapse_intersection fun type member => each type (mem_of_mem_distinct member)

theorem Belongs.literalsOf {values : List String} {value : String} (listed : value ∈ values) :
    Belongs meaning (literalsOf values) (.text value) := by
  obtain ⟨kept, stays, equal⟩ := @distinct_covers String (· == ·) beq_self_eq_true _ _ listed
  obtain rfl := eq_of_beq equal
  exact .literal stays

theorem Belongs.orNull {type : TypeExpr} {value : Instance} (belongs : Belongs meaning type value) :
    Belongs meaning type.orNull value := by
  cases type <;> first | exact belongs | exact .inner belongs

theorem belongs_orNull_null (type : TypeExpr) : Belongs meaning type.orNull .null := by
  cases type <;> exact .null

end TypeExpr

namespace Schema
open TypeExpr

theorem belongs_orNullIf {type : TypeExpr} {value : Instance} (belongs : Belongs meaning type value)
    (nullable : Bool) : Belongs meaning (orNullIf nullable type) value := by
  cases nullable with
  | false => exact belongs
  | true => exact belongs.orNull

theorem belongs_orNullIf_null {nullable : Bool} (admitted : nullable = true) (type : TypeExpr) :
    Belongs meaning (orNullIf nullable type) .null := by
  subst admitted
  exact belongs_orNull_null type

theorem kindScalar_text {kind : String} (known : kind ∈ Instance.textKinds) :
    kindScalar kind = .string := by
  simp only [Instance.textKinds, List.mem_cons, List.not_mem_nil, or_false] at known
  rcases known with rfl | rfl | rfl | rfl | rfl | rfl | rfl <;> rfl

theorem belongs_kindScalar {kind : String} {value : Instance} (ofKind : value.OfKind kind) :
    Belongs meaning (.scalar (kindScalar kind)) value := by
  cases ofKind with
  | integer value known =>
    have number : kindScalar kind = .number := by
      simp only [Instance.integerKinds, List.mem_cons, List.not_mem_nil, or_false] at known
      rcases known with rfl | rfl <;> rfl
    exact number ▸ .number _
  | number value known =>
    have number : kindScalar kind = .number := by
      simp only [Instance.numberKinds, List.mem_cons, List.not_mem_nil, or_false] at known
      rcases known with rfl | rfl | rfl <;> rfl
    exact number ▸ .number value
  | text value known => exact kindScalar_text known ▸ .string value
  | flag value => exact .boolean value
  | null => exact .any _
  | array items => exact .any _
  | object entries => exact .any _
  | other value unknown =>
    have any : kindScalar kind = .any := by
      simp only [Instance.integerKinds, Instance.numberKinds, Instance.textKinds, List.cons_append,
        List.nil_append, List.mem_cons, List.not_mem_nil, or_false, not_or] at unknown
      simp [kindScalar, unknown]
    exact any ▸ .any value

theorem belongs_enumType {values : List EnumValue} {value : String} (listed : .text value ∈ values) :
    Belongs meaning (enumType values) (.text value) := by
  have literals : Belongs meaning (literalsOf (values.filterMap EnumValue.literal?)) (.text value) :=
    .literalsOf (List.mem_filterMap.mpr ⟨_, listed, rfl⟩)
  unfold enumType
  split
  · exact literals.orNull
  · exact literals

theorem belongs_enumType_null {values : List EnumValue} (listed : .null ∈ values) :
    Belongs meaning (enumType values) .null := by
  unfold enumType
  rw [if_pos (List.contains_iff_mem.mpr listed)]
  exact belongs_orNull_null _

theorem belongs_primitiveForm {kind : String} {values : Option (List EnumValue)} {value : Instance}
    (ofKind : value.OfKind kind)
    (listed : ∀ entries, values = some entries → ∃ entry ∈ entries, entry.Denotes value) :
    Belongs meaning (primitiveForm kind values) value := by
  have plain : Belongs meaning (.scalar (kindScalar kind)) value := belongs_kindScalar ofKind
  unfold primitiveForm
  split
  · rename_i entries
    split
    · rename_i string
      rw [string] at plain
      cases plain
      obtain ⟨entry, present, denotes⟩ := listed entries rfl
      cases denotes
      exact belongs_enumType present
    · exact plain
  · exact plain

/-! ### Null types -/

/-- Inside the schema, no null type carries a keyword that decides how the node is read. -/
def NullsBare (schema : Schema) : Prop :=
  ∀ node ∈ schema.inner, node.isNullType = true → node.isStructured = false

theorem NullsBare.child {schema child : Schema} (bare : schema.NullsBare)
    (member : child ∈ schema.children) : child.NullsBare :=
  fun node inside => bare node (mem_inner.mpr ⟨child, member, .inr inside⟩)

theorem shape_of_bare {schema : Schema} (null : schema.isNullType = true)
    (bare : schema.isStructured = false) : schema.shape = .primitive "null" := by
  simp only [isStructured, Bool.or_eq_false_iff, Option.isSome_eq_false_iff,
    Option.isNone_iff_eq_none] at bare
  obtain ⟨⟨⟨⟨⟨⟨⟨ref, properties⟩, items⟩, enum⟩, allOf⟩, oneOf⟩, anyOf⟩, additional⟩ := bare
  have kinds : schema.nonNullTypes = [] := by
    unfold Facets.isNullType at null
    unfold Facets.nonNullTypes
    split at null
    · cases null
    · simp [null]
    · simp at null ⊢
      exact null.2
  simp [shape, untypedShape, ref, properties, items, enum, allOf, oneOf, anyOf, additional, kinds, null]

theorem ofKind_null {kind : String} {value : Instance} (ofKind : value.OfKind kind)
    (null : kind = "null") : value = .null := by
  cases ofKind with
  | null => rfl
  | flag | array | object => exact absurd null (by decide)
  | integer _ known | number _ known | text _ known =>
    subst null
    exact absurd known (by decide)
  | other _ unknown =>
    subst null
    exact absurd (by decide) unknown

theorem Accepts.null_of_bare {resolver : Resolver} {schema : Schema} {value : Instance}
    (accepted : Accepts meaning resolver schema value) (null : schema.isNullType = true)
    (bare : schema.isStructured = false) : value = .null := by
  have bareShape := shape_of_bare null bare
  cases accepted with
  | null => rfl
  | nullEntry => rfl
  | primitive shape ofKind =>
    rw [bareShape] at shape
    exact ofKind_null ofKind (Shape.primitive.inj shape).symm
  | reference shape | allOf shape | someOf shape | array shape | object shape | kinds shape
  | empty _ shape => cases bareShape.symm.trans shape

/-! ### Nodes -/

/-- The values of a synthesized type are among those that the node accepts. -/
def Sound (meaning : String → Set Instance) (resolver : Resolver) (schema : Schema) : Prop :=
  ∀ type value, HasType resolver schema type → Accepts meaning resolver schema value →
    Belongs meaning type value

section Inside

variable {resolver : Resolver} {schema : Schema} {value : Instance}

theorem belongs_index {index : Option TypeExpr} {type : TypeExpr}
    (sound : ∀ child ∈ schema.children, Sound meaning resolver child)
    (typed : IndexTyped resolver schema.additional index) (opened : index = some type)
    (accepted : ∀ node, schema.additional = some (.values node) → Accepts meaning resolver node value) :
    Belongs meaning type value := by
  generalize given : schema.additional = additional at typed
  cases typed with
  | absent | closed => cases opened
  | unrestricted | untyped =>
    cases opened
    exact .any value
  | typed _ values =>
    cases opened
    exact sound _ (values_mem_children given) _ _ values (accepted _ given)

theorem belongs_object {properties : List (String × Schema)} {fields : List (Field TypeExpr)}
    {index : Option TypeExpr} (sound : ∀ child ∈ schema.children, Sound meaning resolver child)
    (declared : schema.properties = some properties)
    (opened : IndexTyped resolver schema.additional index)
    (typed : List.Forall₂ (FieldTyped resolver schema.required index.isSome) properties fields)
    (accepted : AcceptsObject meaning resolver schema value) :
    Belongs meaning (.object fields index) value := by
  obtain ⟨required, known, -, others⟩ := accepted
  rw [declared, Option.getD_some] at known others
  have names : properties.map (·.1) = fields.map (·.name) :=
    InStep.map_eq typed fun _ _ field => field.name.symm
  refine .object (fun field present mandatory => ?_) (fun field present value held => ?_)
    (fun type given entry held fresh => ?_)
  · obtain ⟨property, -, made⟩ := InStep.left_of_right typed present
    have listed := (Bool.or_eq_false_iff.mp (made.optional.symm.trans mandatory)).2
    exact made.name ▸ required property.1 (by simpa using listed)
  · obtain ⟨property, present, made⟩ := InStep.left_of_right typed present
    have accepted := known property present value (made.name ▸ held)
    exact sound _ (property_mem_children declared present) _ _ made.type accepted
  · exact belongs_index sound opened given fun node added =>
      others node added entry held (names ▸ fresh)

theorem belongs_map {index : Option TypeExpr}
    (sound : ∀ child ∈ schema.children, Sound meaning resolver child)
    (undeclared : schema.properties = none) (opened : IndexTyped resolver schema.additional index)
    (accepted : AcceptsObject meaning resolver schema value) :
    Belongs meaning (objectType schema.additional index none) value := by
  obtain ⟨-, -, -, others⟩ := accepted
  unfold objectType
  split
  · rename_i given
    cases given
  split
  · exact .anything _
  · refine .object (by simp) (by simp) fun type given entry held _ => ?_
    cases index with
    | none =>
      cases given
      exact .any _
    | some element =>
      refine belongs_index sound opened given fun node added => others node added entry held ?_
      simp [undeclared]

theorem belongs_member {composition : Composition} {types : List TypeExpr} {member : Schema}
    (sound : ∀ child ∈ schema.children, Sound meaning resolver child) (bare : schema.NullsBare)
    (typed : MembersTyped resolver ((schema.members composition).getD []) types)
    (present : member ∈ (schema.members composition).getD [])
    (accepted : Accepts meaning resolver member value) :
    (admitsNull (schema.members composition) = true ∧ value = .null) ∨
      ∃ type ∈ types, Belongs meaning type value := by
  have child := member_mem_children present
  by_cases null : member.isNullType = true
  · refine .inl ⟨List.any_eq_true.mpr ⟨member, present, null⟩, ?_⟩
    exact accepted.null_of_bare null (bare member (mem_inner.mpr ⟨member, child, .inl rfl⟩) null)
  · have proper : member ∈ ((schema.members composition).getD []).filter (!·.isNullType) :=
      List.mem_filter.mpr ⟨present, by simpa using null⟩
    obtain ⟨type, stays, made⟩ := InStep.right_of_left typed proper
    exact .inr ⟨type, stays, sound member child type value made accepted⟩

theorem belongs_members {types : List TypeExpr}
    (sound : ∀ child ∈ schema.children, Sound meaning resolver child)
    (typed : MembersTyped resolver (schema.allOf.getD []) types)
    (accepted : ∀ member ∈ schema.allOf.getD [], Accepts meaning resolver member value) :
    ∀ type ∈ types, Belongs meaning type value := by
  intro type present
  obtain ⟨member, kept, made⟩ := InStep.left_of_right typed present
  have stated := (List.mem_filter.mp kept).1
  have child : member ∈ schema.children := @member_mem_children schema member .allOf stated
  exact sound member child type value made (accepted member stated)

end Inside

/-- What a node accepts, apart from the null of its flag, by its shape. -/
def Reads (meaning : String → Set Instance) (resolver : Resolver) (schema : Schema)
    (value : Instance) : Shape → Prop
  | .reference target => ∃ name, resolver.resolve target = .ok name ∧ value ∈ meaning name
  | .composite .allOf =>
    (∀ member ∈ schema.allOf.getD [], Accepts meaning resolver member value) ∧
      (schema.properties.isSome = true → AcceptsObject meaning resolver schema value)
  | .composite composition =>
    ∃ member ∈ (schema.members composition).getD [], Accepts meaning resolver member value
  | .array =>
    ∃ items, value = .array items ∧
      ∀ node, schema.items = some node → ∀ item ∈ items, Accepts meaning resolver node item
  | .object => AcceptsObject meaning resolver schema value
  | .primitive kind =>
    (value.OfKind kind ∧
      ∀ values, schema.enum = some values → ∃ entry ∈ values, entry.Denotes value) ∨
    (value = .null ∧ kind ∈ Instance.textKinds ∧ ∃ values, schema.enum = some values ∧ .null ∈ values)
  | .multiType => ∃ kind ∈ schema.nonNullTypes, value.OfKind kind
  | .empty => True

theorem Accepts.reads {resolver : Resolver} {schema : Schema} {value : Instance}
    (accepted : Accepts meaning resolver schema value) :
    (schema.isNullable = true ∧ value = .null) ∨ Reads meaning resolver schema value schema.shape := by
  cases accepted with
  | null nullable => exact .inl ⟨nullable, rfl⟩
  | reference shape resolved present => exact .inr (shape ▸ ⟨_, resolved, present⟩)
  | allOf shape members own => exact .inr (shape ▸ ⟨members, own⟩)
  | @someOf _ _ composition _ shape alternative present accepted =>
    refine .inr (shape ▸ ?_)
    cases composition with
    | allOf => exact absurd rfl alternative
    | oneOf | anyOf => exact ⟨_, present, accepted⟩
  | array shape each => exact .inr (shape ▸ ⟨_, rfl, each⟩)
  | object shape own => exact .inr (shape ▸ own)
  | primitive shape ofKind listed => exact .inr (shape ▸ .inl ⟨ofKind, listed⟩)
  | nullEntry shape texts enumerated listed =>
    exact .inr (shape ▸ .inr ⟨rfl, texts, _, enumerated, listed⟩)
  | kinds shape named ofKind => exact .inr (shape ▸ ⟨_, named, ofKind⟩)
  | empty value shape => exact .inr (shape ▸ trivial)

theorem Formed.sound {resolver : Resolver} {schema : Schema} {core : TypeExpr} {value : Instance}
    (formed : Formed resolver schema core) (bare : schema.NullsBare)
    (sound : ∀ child ∈ schema.children, Sound meaning resolver child)
    (reads : Reads meaning resolver schema value schema.shape) : Belongs meaning core value := by
  cases formed with
  | reference shape resolved =>
    obtain ⟨name, other, present⟩ := shape ▸ reads
    obtain rfl := Except.ok.inj (resolved.symm.trans other)
    exact .named present
  | @union composition types shape alternative typed =>
    have some_member : ∃ member ∈ (schema.members composition).getD [],
        Accepts meaning resolver member value := by
      rw [shape] at reads
      cases composition with
      | allOf => exact absurd rfl alternative
      | oneOf | anyOf => exact reads
    obtain ⟨member, present, accepted⟩ := some_member
    obtain ⟨admitted, rfl⟩ | ⟨type, stays, belongs⟩ := belongs_member sound bare typed present accepted
    · exact belongs_orNullIf_null admitted _
    · exact belongs_orNullIf (.unionOf stays belongs) _
  | intersection shape undeclared typed =>
    rw [shape] at reads
    exact belongs_orNullIf (.intersectionOf (belongs_members sound typed reads.1)) _
  | extension shape declared typed opened each =>
    rw [shape] at reads
    refine belongs_orNullIf (.intersectionOf fun type member => ?_) _
    rcases List.mem_append.mp member with stated | own
    · exact belongs_members sound typed reads.1 type stated
    · obtain rfl := List.mem_singleton.mp own
      exact belongs_object sound declared opened each (reads.2 (by simp [declared]))
  | @array type shape typed untyped =>
    rw [shape] at reads
    obtain ⟨items, rfl, each⟩ := reads
    refine .array fun item member => ?_
    cases given : schema.items with
    | none => exact untyped given ▸ .any item
    | some node =>
      exact sound node (items_mem_children given) type item (typed node given)
        (each node given item member)
  | map shape undeclared opened =>
    rw [shape] at reads
    exact belongs_map sound undeclared opened reads
  | object shape declared opened each =>
    rw [shape] at reads
    exact belongs_object sound declared opened each reads
  | primitive shape =>
    rw [shape] at reads
    obtain ⟨ofKind, listed⟩ | ⟨rfl, texts, values, enumerated, listed⟩ := reads
    · exact belongs_primitiveForm ofKind listed
    · rw [enumerated]
      simp only [primitiveForm, kindScalar_text texts, if_true]
      exact belongs_enumType_null listed
  | kinds shape =>
    rw [shape] at reads
    obtain ⟨kind, present, ofKind⟩ := reads
    exact .unionOf (List.mem_map_of_mem present) (belongs_kindScalar ofKind)
  | empty shape => exact .anything value

theorem NullsBare.sound {resolver : Resolver} {schema : Schema} (bare : schema.NullsBare) :
    Sound meaning resolver schema := by
  induction schema using induct_children with
  | step schema ih =>
    intro type value typed accepted
    obtain ⟨core, formed, rfl⟩ := typed.formed
    obtain ⟨nullable, rfl⟩ | reads := accepted.reads
    · exact belongs_orNullIf_null nullable core
    · exact belongs_orNullIf
        (formed.sound bare (fun child member => ih child member (bare.child member)) reads) _

/-- What a schema accepts belongs to the type synthesized for it, whatever values the names of other
components stand for. -/
theorem synthesize_sound (resolver : Resolver) (meaning : String → Set Instance) (schema : Schema)
    (place : String) (type : TypeExpr) (value : Instance) (bare : schema.NullsBare)
    (made : (schema.synthesize resolver place).outcome = .ok type)
    (accepted : schema.Accepts meaning resolver value) : type.Belongs meaning value :=
  bare.sound type value ⟨place, made⟩ accepted

/-- Null, or an object with a tag beside numbers. -/
def taggedCounts : Schema where
  oneOf := some [
    { type := some (.single "null") },
    { properties := some [
        ("tag", { type := some (.single "string"), enum := some [.text "a", .text "b"] })]
      required := ["tag"]
      additional := some (.values { type := some (.single "integer") }) }]

theorem taggedCounts_sound :
    taggedCounts.NullsBare ∧
      (taggedCounts.synthesize ⟨{}, []⟩ "Counts").outcome =
        .ok (.nullable (.object [⟨"tag", .literals ["a", "b"], true, none⟩]
          (some (.scalar .number)))) ∧
      taggedCounts.Accepts (fun _ => ∅) ⟨{}, []⟩
        (.object [("tag", .text "a"), ("size", .number (3 : Int))]) ∧
      TypeExpr.Belongs (fun _ => ∅)
        (.nullable (.object [⟨"tag", .literals ["a", "b"], true, none⟩] (some (.scalar .number))))
        (.object [("tag", .text "a"), ("size", .number (3 : Int))]) := by
  have bare : taggedCounts.NullsBare := by
    unfold NullsBare
    decide +kernel
  have made : (taggedCounts.synthesize ⟨{}, []⟩ "Counts").outcome =
      .ok (.nullable (.object [⟨"tag", .literals ["a", "b"], true, none⟩]
        (some (.scalar .number)))) := by rfl
  have accepted : taggedCounts.Accepts (fun _ => ∅) ⟨{}, []⟩
      (.object [("tag", .text "a"), ("size", .number (3 : Int))]) := by
    refine .someOf rfl (show Composition.oneOf ≠ .allOf by decide) (.tail _ (.head _)) (.object rfl ?_)
    refine .intro (by simp) ?_ (fun closed => by cases closed) ?_
    · simp only [Option.getD_some, List.mem_singleton, forall_eq]
      intro value held
      obtain rfl : value = .text "a" := by simpa using held
      refine .primitive rfl (.text "a" (by decide)) fun values given => ?_
      cases given
      exact ⟨_, .head _, .text "a"⟩
    · intro node given entry held fresh
      cases given
      obtain rfl | rfl : entry = ("tag", .text "a") ∨ entry = ("size", .number (3 : Int)) := by
        simpa using held
      · exact absurd (by simp) fresh
      · exact .primitive rfl (.integer 3 (by decide)) fun values given => by cases given
  exact ⟨bare, made, accepted, synthesize_sound _ _ _ _ _ _ bare made accepted⟩

end Schema
end TypedClient
