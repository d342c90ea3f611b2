import TypedClient.Proofs.TypeExpr.Subterms
import TypedClient.Proofs.InStep

/-!
Structural equality and the removal of repetitions. The first occurrences of a list are members of it,
and every member has the same first occurrence.
-/
namespace TypedClient

section Distinct

variable {α : Type} {same : α → α → Bool}

theorem addNew_sublist (kept : List α) (x : α) : (addNew same kept x).Sublist (kept ++ [x]) := by
  unfold addNew
  split
  · exact List.sublist_append_left kept [x]
  · exact List.Sublist.refl _

theorem subset_addNew (kept : List α) (x : α) : kept ⊆ addNew same kept x := by
  intro y member
  unfold addNew
  split
  · exact member
  · exact List.mem_append_left _ member

theorem addNew_covers (refl : ∀ x, same x x = true) (kept : List α) (x : α) :
    ∃ y ∈ addNew same kept x, same y x = true := by
  unfold addNew
  split
  · rename_i found
    exact List.any_eq_true.mp found
  · exact ⟨x, by simp, refl x⟩

theorem foldl_addNew_sublist (xs kept : List α) :
    (xs.foldl (addNew same) kept).Sublist (kept ++ xs) := by
  induction xs generalizing kept with
  | nil => simp
  | cons x xs ih =>
    have head : (addNew same kept x ++ xs).Sublist (kept ++ [x] ++ xs) :=
      (addNew_sublist kept x).append_right xs
    rw [List.append_assoc] at head
    exact (ih (addNew same kept x)).trans head

theorem subset_foldl_addNew (xs kept : List α) : kept ⊆ xs.foldl (addNew same) kept := by
  induction xs generalizing kept with
  | nil => exact fun _ member => member
  | cons x xs ih => exact fun _ member => ih _ (subset_addNew kept x member)

theorem distinct_sublist (xs : List α) : (distinct same xs).Sublist xs :=
  foldl_addNew_sublist xs []

theorem mem_of_mem_distinct {xs : List α} {y : α} (member : y ∈ distinct same xs) : y ∈ xs :=
  (distinct_sublist xs).subset member

/-- No value is lost by leaving repetitions out. -/
theorem distinct_covers (refl : ∀ x, same x x = true) {xs : List α} {x : α} (member : x ∈ xs) :
    ∃ y ∈ distinct same xs, same y x = true := by
  unfold distinct
  generalize ([] : List α) = kept
  induction xs generalizing kept with
  | nil => cases member
  | cons first xs ih =>
    rcases List.mem_cons.mp member with rfl | later
    · obtain ⟨y, present, equal⟩ := addNew_covers refl kept x
      exact ⟨y, subset_foldl_addNew xs _ present, equal⟩
    · exact ih later _

end Distinct

namespace TypeExpr

/-- Fields that differ in nothing but their descriptions. -/
def FieldsAlike (field field' : Field TypeExpr) : Prop :=
  field.name = field'.name ∧ same field.type field'.type = true ∧ field.optional = field'.optional

theorem sameAll_iff {as bs : List TypeExpr} :
    sameAll as bs = true ↔ List.Forall₂ (fun a b => same a b = true) as bs := by
  induction as generalizing bs with
  | nil => cases bs <;> simp [sameAll]
  | cons a as ih => cases bs <;> simp [sameAll, ih]

theorem sameFields_iff {as bs : List (Field TypeExpr)} :
    sameFields as bs = true ↔ List.Forall₂ FieldsAlike as bs := by
  induction as generalizing bs with
  | nil => cases bs <;> simp [sameFields]
  | cons a as ih => cases bs <;> simp [sameFields, ih, FieldsAlike, and_assoc]

theorem same_of_sameIndex {index index' : Option TypeExpr} {type : TypeExpr}
    (equal : sameIndex index index' = true) (opened : index = some type) :
    ∃ type', index' = some type' ∧ same type type' = true := by
  subst opened
  cases index' with
  | none => simp [sameIndex] at equal
  | some type' => exact ⟨type', rfl, equal⟩

theorem same_refl (type : TypeExpr) : same type type = true := by
  induction type with
  | scalar | literals | named => simp [same]
  | array items ih | nullable inner ih => simpa [same] using ih
  | union members ih | intersection members ih =>
    simp only [same, sameAll_iff, List.forall₂_same]
    exact ih
  | object fields index fieldTypes indexType =>
    simp only [same, Bool.and_eq_true, sameFields_iff, List.forall₂_same]
    refine ⟨fun field present => ⟨rfl, fieldTypes field present, rfl⟩, ?_⟩
    cases index with
    | none => rfl
    | some type => exact indexType type rfl

theorem mem_distinct_of_mem {types : List TypeExpr} {type : TypeExpr} (member : type ∈ types) :
    ∃ kept ∈ distinct same types, same kept type = true :=
  distinct_covers same_refl member

end TypeExpr
end TypedClient
