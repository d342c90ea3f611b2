import TypedClient.Proofs.Instance.Soundness
import TypedClient.Proofs.Synthesis.Unfolded

/-!
Enumerations without a type. Every entry but null is written as a text, so the type has the texts of the
entries for its values: an entry is among them if it is a text or null, and no number or flag ever is.
-/
namespace TypedClient

variable {meaning : String → Set Instance}

namespace TypeExpr

theorem belongs_orNull_iff {type : TypeExpr} {value : Instance} :
    Belongs meaning type.orNull value ↔ value = .null ∨ Belongs meaning type value := by
  constructor
  · intro belongs
    cases type with
    | nullable => exact .inr belongs
    | _ =>
      cases belongs with
      | null => exact .inl rfl
      | inner belongs => exact .inr belongs
  · rintro (rfl | belongs)
    · exact belongs_orNull_null type
    · exact belongs.orNull

theorem belongs_literalsOf_iff {values : List String} {value : Instance} :
    Belongs meaning (literalsOf values) value ↔ ∃ text ∈ values, value = .text text := by
  constructor
  · intro belongs
    cases belongs with
    | literal listed => exact ⟨_, mem_of_mem_distinct listed, rfl⟩
  · rintro ⟨text, listed, rfl⟩
    exact .literalsOf listed

end TypeExpr

/-- Whether the entry of an enumeration belongs to the type that its enumeration gets. -/
def EnumValue.isTextual : EnumValue → Bool
  | .text _ | .null => true
  | _ => false

namespace Schema
open TypeExpr

theorem belongs_orNullIf_iff {nullable : Bool} {type : TypeExpr} {value : Instance} :
    Belongs meaning (orNullIf nullable type) value ↔
      value = .null ∧ nullable = true ∨ Belongs meaning type value := by
  cases nullable <;> simp [orNullIf, belongs_orNull_iff]

theorem belongs_enumType_iff {values : List EnumValue} {value : Instance} :
    Belongs meaning (enumType values) value ↔ value = .null ∧ .null ∈ values ∨
      ∃ entry ∈ values, ∃ text, entry.literal? = some text ∧ value = .text text := by
  have literals : Belongs meaning (literalsOf (values.filterMap EnumValue.literal?)) value ↔
      ∃ entry ∈ values, ∃ text, entry.literal? = some text ∧ value = .text text := by
    rw [belongs_literalsOf_iff]
    simp only [List.mem_filterMap]
    constructor
    · rintro ⟨text, ⟨entry, listed, written⟩, same⟩
      exact ⟨entry, listed, text, written, same⟩
    · rintro ⟨entry, listed, text, written, same⟩
      exact ⟨text, ⟨entry, listed, written⟩, same⟩
  have split : enumType values =
      orNullIf (values.contains .null) (literalsOf (values.filterMap EnumValue.literal?)) := rfl
  rw [split, belongs_orNullIf_iff, literals, List.contains_iff_mem]

/-- `enum` alone decides how the node is read. -/
structure Enumerates (schema : Schema) (values : List EnumValue) : Prop where
  enum : schema.enum = some values
  type : schema.type = none
  ref : schema.ref = none
  properties : schema.properties = none
  items : schema.items = none
  allOf : schema.allOf = none
  oneOf : schema.oneOf = none
  anyOf : schema.anyOf = none
  additional : schema.additional = none

variable {schema : Schema} {values : List EnumValue}

theorem Enumerates.shape (enumerates : Enumerates schema values) :
    schema.shape = .primitive "string" := by
  obtain ⟨enum, type, ref, properties, items, allOf, oneOf, anyOf, additional⟩ := enumerates
  simp [Schema.shape, untypedShape, Facets.nonNullTypes, enum, type, ref, properties, items, allOf, oneOf,
    anyOf, additional]

theorem Enumerates.isNullable (enumerates : Enumerates schema values) :
    schema.isNullable = schema.nullable := by
  simp [Facets.isNullable, enumerates.ref, enumerates.type]

theorem Enumerates.outcome (enumerates : Enumerates schema values) (resolver : Resolver)
    (place : String) : (schema.synthesize resolver place).outcome =
      .ok (orNullIf schema.nullable (enumType values)) := by
  have core : (schema.synthesizeCore resolver place).outcome = .ok (enumType values) := by
    rw [synthesizeCore, enumerates.shape]
    dsimp only
    rw [primitiveType_outcome, enumerates.enum]
    rfl
  rw [synthesize_eq, Traced.outcome_bind, core, enumerates.isNullable]
  rfl

/-- The values of the type are the texts of the entries, and null if it is an entry or the node is nullable.
Of the entries themselves the type admits the texts and null. -/
structure AdmitsTexts (meaning : String → Set Instance) (schema : Schema) (values : List EnumValue)
    (type : TypeExpr) : Prop where
  belongs_iff : ∀ value, Belongs meaning type value ↔
    value = .null ∧ (schema.nullable = true ∨ .null ∈ values) ∨
      ∃ entry ∈ values, ∃ text, entry.literal? = some text ∧ value = .text text
  entry_iff : ∀ entry ∈ values, ∀ value, entry.Denotes value →
    (Belongs meaning type value ↔ entry.isTextual = true)

theorem enumeration_admits_texts (meaning : String → Set Instance) (resolver : Resolver)
    (place : String) (enumerates : Enumerates schema values) :
    ∃ type, (schema.synthesize resolver place).outcome = .ok type ∧
      AdmitsTexts meaning schema values type := by
  refine ⟨_, enumerates.outcome resolver place, fun value => ?_, fun entry listed value denotes => ?_⟩
  · rw [belongs_orNullIf_iff, belongs_enumType_iff, ← or_assoc, ← and_or_left]
  · rw [belongs_orNullIf_iff, belongs_enumType_iff]
    cases denotes with
    | text value => exact iff_of_true (.inr (.inr ⟨_, listed, value, rfl, rfl⟩)) rfl
    | null => exact iff_of_true (.inr (.inl ⟨rfl, listed⟩)) rfl
    | integer | float | flag => simp [EnumValue.isTextual]

/-- A text, a number that is written as the same text, and null. -/
def gradeEntries : List EnumValue :=
  [.text "2", .integer 2, .null]

def grades : Schema :=
  { enum := some gradeEntries }

theorem grades_admit_texts : Enumerates grades gradeEntries ∧
    ∃ type, (grades.synthesize ⟨{}, []⟩ "Grade").outcome = .ok type ∧
      AdmitsTexts (fun _ => ∅) grades gradeEntries type := by
  have enumerates : Enumerates grades gradeEntries := ⟨rfl, rfl, rfl, rfl, rfl, rfl, rfl, rfl, rfl⟩
  exact ⟨enumerates, enumeration_admits_texts _ _ _ enumerates⟩

def statusCodes : Schema :=
  { enum := some [.integer 200, .integer 404] }

/-- Numbers are written as texts and then are no values of their own type. -/
theorem statusCodes_stringified :
    (statusCodes.synthesize ⟨{}, []⟩ "Status").outcome = .ok (.literals ["200", "404"]) ∧
      EnumValue.Denotes (.integer 200) (.number 200) ∧
      ¬ Belongs (fun _ => ∅) (.literals ["200", "404"]) (.number 200) := by
  have enumerates : Enumerates statusCodes [.integer 200, .integer 404] :=
    ⟨rfl, rfl, rfl, rfl, rfl, rfl, rfl, rfl, rfl⟩
  refine ⟨(enumerates.outcome _ _).trans ?_, .integer 200, fun belongs => ?_⟩
  · have written : distinct (· == ·) ["200", "404"] = ["200", "404"] := by decide
    exact congrArg (fun texts => Except.ok (TypeExpr.literals texts)) written
  · cases belongs

end Schema
end TypedClient
