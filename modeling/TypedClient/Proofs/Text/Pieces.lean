import Mathlib.Data.List.Forall2
import TypedClient.Text.Blank

/-!
Pieces that stand in a text one after the other. They still do if more text stands before, behind or
between, and if white space is cut off at the end, as long as no piece ends in it.
-/
namespace TypedClient.Text

inductive Shows : List (List Char) → List Char → Prop where
  | none (text : List Char) : Shows [] text
  | next (before : List Char) {piece rest : List Char} {pieces : List (List Char)}
      (later : Shows pieces rest) : Shows (piece :: pieces) (before ++ piece ++ rest)

variable {pieces others : List (List Char)} {text more : List Char}

namespace Shows

theorem single (before piece rest : List Char) : Shows [piece] (before ++ piece ++ rest) :=
  .next before (.none rest)

theorem after (before : List Char) (shows : Shows pieces text) : Shows pieces (before ++ text) := by
  cases shows with
  | none => exact .none _
  | next front later =>
    rw [← List.append_assoc, ← List.append_assoc]
    exact .next (before ++ front) later

theorem append (first : Shows pieces text) (second : Shows others more) :
    Shows (pieces ++ others) (text ++ more) := by
  induction first with
  | none text => exact second.after text
  | next before _ ih =>
    rw [List.append_assoc, List.cons_append]
    exact .next before ih

theorem eq_nil_of_empty (shows : Shows pieces []) (filled : ∀ piece ∈ pieces, piece ≠ []) :
    pieces = [] := by
  generalize empty : ([] : List Char) = text at shows
  cases shows with
  | none => rfl
  | next before later =>
    have parts := List.append_eq_nil_iff.mp (List.append_eq_nil_iff.mp empty.symm).1
    exact absurd parts.2 (filled _ List.mem_cons_self)

theorem cons_intercalate (separator : List Char) {texts : List (List Char)} (first : Shows pieces text)
    (later : Shows others (separator.intercalate texts)) :
    Shows (pieces ++ others) (separator.intercalate (text :: texts)) := by
  cases texts with
  | nil =>
    have alone := first.append later
    rw [List.intercalate_nil, List.append_nil] at alone
    rwa [List.intercalate_singleton]
  | cons next texts =>
    rw [List.intercalate_cons_cons, List.append_assoc]
    exact first.append (later.after separator)

theorem intercalate (separator : List Char) {each : List (List (List Char))} {texts : List (List Char)}
    (shows : List.Forall₂ Shows each texts) :
    Shows each.flatten (separator.intercalate texts) := by
  induction shows with
  | nil => exact .none _
  | cons first _ ih => exact first.cons_intercalate separator ih

end Shows

/-! ### White space at the end -/

def Settled (piece : List Char) : Prop :=
  ∃ front last, piece = front ++ [last] ∧ isBlank last = false

theorem Settled.filled {piece : List Char} (settled : Settled piece) : piece ≠ [] := by
  obtain ⟨front, last, rfl, -⟩ := settled
  exact List.append_ne_nil_of_right_ne_nil _ (List.cons_ne_nil _ _)

theorem Settled.append_left {piece : List Char} (settled : Settled piece) (before : List Char) :
    Settled (before ++ piece) := by
  obtain ⟨front, last, rfl, kept⟩ := settled
  exact ⟨before ++ front, last, (List.append_assoc ..).symm, kept⟩

theorem trimEnd_cons_kept (c : Char) {rest : List Char} (kept : trimEnd rest ≠ []) :
    trimEnd (c :: rest) = c :: trimEnd rest := by
  rw [trimEnd]
  split
  · rename_i cut
    exact absurd cut kept
  · rfl

theorem trimEnd_settled {piece : List Char} (settled : Settled piece) (rest : List Char) :
    trimEnd (piece ++ rest) = piece ++ trimEnd rest := by
  obtain ⟨front, last, rfl, kept⟩ := settled
  induction front with
  | nil =>
    -- The cut from the end stops at the last character of the piece at the latest.
    rw [List.nil_append, List.singleton_append, List.singleton_append, trimEnd]
    split
    · rename_i cut
      rw [cut, kept, if_neg Bool.false_ne_true]
    · rfl
  | cons c front ih =>
    have filled : front ++ [last] ++ trimEnd rest ≠ [] := by simp
    rw [List.cons_append, List.cons_append, trimEnd_cons_kept c (ih ▸ filled), ih, List.cons_append]

theorem Shows.trimmed (shows : Shows pieces text) (settled : ∀ piece ∈ pieces, Settled piece) :
    Shows pieces (trimEnd text) := by
  induction shows with
  | none => exact .none _
  | @next before piece rest pieces _ ih =>
    rw [List.forall_mem_cons] at settled
    rw [trimEnd_settled (settled.1.append_left before)]
    exact .next before (ih settled.2)

/-! ### Joined texts -/

/-- What every text ends with moves into the separator. -/
theorem intercalate_ended (separator ending : String) {texts : List String} (filled : texts ≠ []) :
    separator.intercalate (texts.map (· ++ ending)) =
      (ending ++ separator).intercalate texts ++ ending := by
  induction texts with
  | nil => exact absurd rfl filled
  | cons text rest ih =>
    cases rest with
    | nil => simp
    | cons next rest =>
      rw [List.map_cons, String.intercalate_cons_of_ne_nil (by simp), ih (List.cons_ne_nil _ _),
        String.intercalate_cons_cons]
      simp only [String.append_assoc]

theorem intercalate_continued (separator last more : String) (texts : List String) :
    separator.intercalate (texts ++ [last ++ more]) =
      separator.intercalate (texts ++ [last]) ++ more := by
  by_cases none : texts = []
  · simp [none]
  · rw [String.intercalate_append_of_ne_nil none (List.cons_ne_nil _ _),
      String.intercalate_append_of_ne_nil none (List.cons_ne_nil _ _), String.intercalate_singleton,
      String.intercalate_singleton]
    simp only [String.append_assoc]

theorem settled_intercalate (separator : String) {texts : List String} (filled : texts ≠ [])
    (settled : ∀ text ∈ texts, Settled text.toList) :
    Settled (separator.intercalate texts).toList := by
  induction texts with
  | nil => exact absurd rfl filled
  | cons text rest ih =>
    rw [List.forall_mem_cons] at settled
    by_cases none : rest = []
    · rw [none, String.intercalate_singleton]
      exact settled.1
    · rw [String.intercalate_cons_of_ne_nil none, String.toList_append]
      exact (ih none settled.2).append_left _

end TypedClient.Text
