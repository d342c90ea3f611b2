import TypedClient.Script.Types
import TypedClient.Proofs.TypeExpr.Distinct

/-!
The text of a type in terms of the texts of its parts. What is written for an index signature is the
text of the widened index type.
-/
namespace TypedClient.TypeExpr

/-- The text of a type where brackets or `&` follow. -/
def operandText (type : TypeExpr) : String :=
  wrapped (type, type.text)

@[simp] theorem joinWritten_singleton (written : Written) : joinWritten [written] = written.2 := by
  simp [joinWritten]

/-- A type that is written as one alternative. -/
theorem text_of_alternatives {type : TypeExpr} {written : String}
    (single : alternatives type = [(type, written)]) : type.text = written := by
  rw [text, single, joinWritten_singleton]

theorem alternatives_object (fields : List (Field TypeExpr)) (index : Option TypeExpr) :
    alternatives (.object fields index) = [(.object fields index, objectText
      (((fields.zip (fieldAlternatives fields)).map fun entry =>
          entry.1.key ++ ": " ++ joinWritten entry.2) ++
        (indexAlternatives index).toList.map fun entry =>
          "[key: string]: " ++ indexText entry.1 entry.2 (fieldAlternatives fields)))] :=
  rfl

theorem text_scalar (kind : Scalar) : (scalar kind).text = kind.text :=
  text_of_alternatives rfl

theorem text_literals (values : List String) : (literals values).text = literalsText values :=
  text_of_alternatives rfl

theorem text_named (name : String) : (named name).text = name :=
  text_of_alternatives rfl

theorem text_array (items : TypeExpr) : (array items).text = items.operandText ++ "[]" :=
  text_of_alternatives rfl

theorem text_nullable (inner : TypeExpr) : (nullable inner).text = inner.text ++ " | null" :=
  text_of_alternatives rfl

theorem memberTexts_cons (member : TypeExpr) (rest : List TypeExpr) :
    memberTexts (member :: rest) = (member, member.text) :: memberTexts rest :=
  rfl

theorem memberTexts_eq (members : List TypeExpr) :
    memberTexts members = members.map fun member => (member, member.text) := by
  induction members with
  | nil => rfl
  | cons member rest ih => rw [memberTexts_cons, ih, List.map_cons]

theorem fieldAlternatives_cons (field : Field TypeExpr) (rest : List (Field TypeExpr)) :
    fieldAlternatives (field :: rest) = alternatives field.type :: fieldAlternatives rest :=
  rfl

theorem fieldAlternatives_eq (fields : List (Field TypeExpr)) :
    fieldAlternatives fields = fields.map fun field => alternatives field.type := by
  induction fields with
  | nil => rfl
  | cons field rest ih => rw [fieldAlternatives_cons, ih, List.map_cons]

/-- The alternatives of a type are the members of its union, each with its text. -/
theorem alternatives_eq (type : TypeExpr) :
    alternatives type = (unionMembers type).map fun member => (member, member.text) := by
  have alone {type : TypeExpr} {written : String} (single : alternatives type = [(type, written)]) :
      alternatives type = [(type, type.text)] := by
    rw [text_of_alternatives single, single]
  cases type with
  | union members => exact memberTexts_eq members
  | object fields index => exact alone (alternatives_object fields index)
  | _ => exact alone rfl

theorem joinWritten_texts (types : List TypeExpr) :
    joinWritten (types.map fun type => (type, type.text)) =
      String.intercalate " | " (types.map text) := by
  simp [joinWritten, Function.comp_def]

theorem text_union (members : List TypeExpr) :
    (union members).text = String.intercalate " | " (members.map text) := by
  rw [text, alternatives_eq]
  exact joinWritten_texts members

theorem text_intersection (members : List TypeExpr) :
    (intersection members).text = String.intercalate " & " (members.map operandText) := by
  have written : (intersection members).text =
      String.intercalate " & " ((memberTexts members).map wrapped) := text_of_alternatives rfl
  rw [written, memberTexts_eq, List.map_map]
  rfl

/-! ### Index signatures -/

theorem distinct_map {α β : Type} {same : β → β → Bool} (f : α → β) (xs : List α) :
    distinct same (xs.map f) = (distinct (fun a b => same (f a) (f b)) xs).map f := by
  have step : ∀ kept : List α, (xs.map f).foldl (addNew same) (kept.map f) =
      (xs.foldl (addNew fun a b => same (f a) (f b)) kept).map f := by
    induction xs with
    | nil => exact fun _ => rfl
    | cons x xs ih =>
      intro kept
      have moved : addNew same (kept.map f) (f x) =
          (addNew (fun a b => same (f a) (f b)) kept x).map f := by
        unfold addNew
        simp only [List.any_map, Function.comp_def]
        split <;> simp
      rw [List.map_cons, List.foldl_cons, List.foldl_cons, moved, ih]
  exact step []

theorem text_collapse_union (types : List TypeExpr) :
    (collapse .union types).text =
      match types with
      | [] => Scalar.any.text
      | types => String.intercalate " | " (types.map text) := by
  match types with
  | [] => exact text_scalar .any
  | [type] => simp [collapse]
  | _ :: _ :: _ => exact text_union _

theorem indexText_eq (index : TypeExpr) (fields : List (Field TypeExpr)) :
    indexText index (alternatives index) (fieldAlternatives fields) =
      (indexType fields index).text := by
  rw [indexText, indexType, fieldAlternatives_eq, List.isEmpty_map]
  split
  · rfl
  · have written : alternatives index ++ (fields.map fun field => alternatives field.type).flatten =
        ((index :: fields.map (·.type)).flatMap unionMembers).map fun type => (type, type.text) := by
      simp [alternatives_eq, List.flatMap_def, List.map_flatten, Function.comp_def]
    rw [written, distinct_map, unionOf]
    generalize distinct (fun a b => same a b) _ = kept
    cases kept with
    | nil => exact (text_scalar .any).symm
    | cons first rest =>
      rw [text_collapse_union]
      exact joinWritten_texts (first :: rest)

theorem zip_fieldAlternatives (fields : List (Field TypeExpr)) :
    fields.zip (fieldAlternatives fields) = fields.map fun field => (field, alternatives field.type) := by
  induction fields with
  | nil => rfl
  | cons field rest ih => rw [fieldAlternatives_cons, List.zip_cons_cons, ih, List.map_cons]

theorem text_object (fields : List (Field TypeExpr)) (index : Option TypeExpr) :
    (object fields index).text =
      objectText ((fields.map fun field => field.key ++ ": " ++ field.type.text) ++
        index.toList.map fun type => "[key: string]: " ++ (indexType fields type).text) := by
  rw [text_of_alternatives (alternatives_object fields index), zip_fieldAlternatives, List.map_map]
  cases index with
  | none => rfl
  | some type => simp [indexAlternatives, indexText_eq, Function.comp_def, text]

end TypedClient.TypeExpr
