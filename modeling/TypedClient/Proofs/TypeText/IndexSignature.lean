import TypedClient.Proofs.Synthesis.Typing
import TypedClient.Proofs.TypeText.Values

/-!
Index signatures beside declared fields. The widened index type admits what the index and the types of
the fields admit, but nothing is added for a field that may be absent. The signature of an object type
fits its fields if none is optional or if one of these types has `undefined` for a value.
-/
namespace TypedClient.TypeExpr
open TypeText

variable {meaning : String → Set Value} {fields : List (Field TypeExpr)} {index : TypeExpr}

theorem admits_of_isTop {type : TypeExpr} (top : type.isTop = true) (value : Value) :
    type.tree.Admits meaning value := by
  unfold isTop at top
  split at top
  · exact admits_any value
  · rw [tree_scalar]
    exact .predefined (.unknown value)
  · cases top

theorem admits_indexType_iff {value : Value} :
    (indexType fields index).tree.Admits meaning value ↔ indexType fields index = any ∨
      ∃ type ∈ index :: fields.map (·.type), type.tree.Admits meaning value := by
  unfold indexType
  split
  · rename_i kept
    constructor
    · exact fun admits => .inr ⟨index, List.mem_cons_self, admits⟩
    · rintro (rfl | ⟨type, present, admits⟩)
      · exact admits_any value
      · rcases (Bool.or_eq_true _ _).mp kept with none | top
        · rw [List.isEmpty_iff.mp none] at present
          exact List.mem_singleton.mp present ▸ admits
        · exact admits_of_isTop top value
  · exact admits_unionOf_iff

theorem tree_object (fields : List (Field TypeExpr)) (index : TypeExpr) :
    (object fields (some index)).tree =
      .object ((fields.map fun field => (.property field.name field.optional, field.type.tree)) ++
        [(.index, (indexType fields index).tree)]) := by
  rw [tree, branches_object, Tree.ofBranches]
  simp [entries, Function.comp_def]

/-- The one signature stands beside all fields. -/
theorem signatureFits_iff_fields :
    (object fields (some index)).tree.SignatureFits meaning ↔
      ∀ field ∈ fields, ∀ value,
        field.type.tree.AdmitsProperty meaning field.optional value →
          (indexType fields index).tree.Admits meaning value := by
  rw [tree_object]
  constructor
  · intro fits field present value admits
    refine fits _ (List.mem_append_right _ (List.mem_singleton_self _)) field.name field.optional
      field.type.tree (List.mem_append_left _ ?_) value admits
    exact List.mem_map.mpr ⟨field, present, rfl⟩
  · intro fits signature indexed name optional type declared value admits
    obtain rfl : signature = (indexType fields index).tree := by simpa using indexed
    obtain ⟨field, present, rfl, rfl, rfl⟩ : ∃ field ∈ fields, field.name = name ∧
        field.optional = optional ∧ field.type.tree = type := by
      simpa [and_assoc] using declared
    exact fits field present value admits

theorem signatureFits_iff :
    (object fields (some index)).tree.SignatureFits meaning ↔
      (∀ field ∈ fields, field.optional = false) ∨
        (indexType fields index).tree.Admits meaning .undefined := by
  rw [signatureFits_iff_fields]
  constructor
  · intro fits
    rw [Classical.or_iff_not_imp_left]
    intro someOptional
    obtain ⟨field, present, optional⟩ : ∃ field ∈ fields, field.optional = true := by
      simpa using someOptional
    exact fits field present .undefined (.inl ⟨optional, rfl⟩)
  · -- The types of the fields are always admitted: `undefined` is all that can be missing.
    rintro fits field present value (⟨optional, rfl⟩ | admits)
    · rcases fits with required | admits
      · exact absurd (required field present) (by simp [optional])
      · exact admits
    · exact admits_indexType_iff.mpr
        (.inr ⟨_, List.mem_cons_of_mem _ (List.mem_map_of_mem present), admits⟩)

/-- Beside an index, synthesis makes every field optional. -/
theorem typed_signatureFits_iff {resolver : Resolver} {required : List String}
    {properties : List (String × Schema)}
    (typed : List.Forall₂ (Schema.FieldTyped resolver required true) properties fields) :
    (object fields (some index)).tree.SignatureFits meaning ↔
      properties = [] ∨ (indexType fields index).tree.Admits meaning .undefined := by
  have optional : (∀ field ∈ fields, field.optional = false) ↔ properties = [] := by
    cases typed with
    | nil => simp
    | cons head _ => simp [head.optional]
  rw [signatureFits_iff, optional]

/-- What a widened index type admits, and when that is enough for the fields beside its signature. -/
structure Widens (meaning : String → Set Value) (fields : List (Field TypeExpr)) (index : TypeExpr) :
    Prop where
  own : ∀ value, index.tree.Admits meaning value →
    (indexType fields index).tree.Admits meaning value
  declared : ∀ field ∈ fields, ∀ value, field.type.tree.Admits meaning value →
    (indexType fields index).tree.Admits meaning value
  /-- Nothing else is admitted, unless there is nothing to unite. -/
  onlyThese : ∀ value, (indexType fields index).tree.Admits meaning value →
    indexType fields index = any ∨
      ∃ type ∈ index :: fields.map (·.type), type.tree.Admits meaning value
  fits_iff : (object fields (some index)).tree.SignatureFits meaning ↔
    (∀ field ∈ fields, field.optional = false) ∨ indexType fields index = any ∨
      ∃ type ∈ index :: fields.map (·.type), type.tree.Admits meaning .undefined

theorem indexType_widens (meaning : String → Set Value) (fields : List (Field TypeExpr))
    (index : TypeExpr) : Widens meaning fields index where
  own _ admits := admits_indexType_iff.mpr (.inr ⟨index, List.mem_cons_self, admits⟩)
  declared _ present _ admits := admits_indexType_iff.mpr
    (.inr ⟨_, List.mem_cons_of_mem _ (List.mem_map_of_mem present), admits⟩)
  onlyThese _ admits := admits_indexType_iff.mp admits
  fits_iff := by rw [signatureFits_iff, admits_indexType_iff]

/-- A label that may be absent, beside numbers. -/
def labelledCounts : Schema where
  properties := some [("label", { type := some (.single "string") })]
  additional := some (.values { type := some (.single "integer") })

/-- An absent label is no value of the index signature. -/
theorem labelledCounts_unfit :
    (labelledCounts.synthesize ⟨{}, []⟩ "Counts").outcome =
      .ok (.object [⟨"label", .scalar .string, true, none⟩] (some (.scalar .number))) ∧
    (indexType [⟨"label", .scalar .string, true, none⟩] (.scalar .number)).text = "number | string" ∧
    ¬ (object [⟨"label", .scalar .string, true, none⟩] (some (.scalar .number))).tree.SignatureFits
      fun _ => ∅ := by
  refine ⟨rfl, by decide, fun fits => ?_⟩
  rcases signatureFits_iff.mp fits with required | admits
  · exact absurd (required _ List.mem_cons_self) (by decide)
  · rcases admits_indexType_iff.mp admits with everything | ⟨type, present, admits⟩
    · cases everything
    · obtain rfl | rfl : type = .scalar .number ∨ type = .scalar .string := by simpa using present
      all_goals
        rw [tree_scalar] at admits
        cases admits with
        | predefined known => cases known

end TypedClient.TypeExpr
