import Mathlib.Data.List.DropRight
import TypedClient.Proofs.Text.Pieces

/-!
Texts as lines. No line holds a line feed, cutting blank space off leaves the rest as it is, and lines that
end in something visible are found again in the text that joins them.
-/
namespace TypedClient.Text

variable {text line piece rest : List Char}

/-! ### Blank space at the end -/

theorem rdropWhile_cons {α : Type} (drop : α → Bool) (x : α) (rest : List α) :
    (x :: rest).rdropWhile drop =
      match rest.rdropWhile drop with
      | [] => if drop x then [] else [x]
      | kept => x :: kept := by
  rw [List.rdropWhile, List.rdropWhile, List.reverse_cons, List.dropWhile_append]
  cases rest.reverse.dropWhile drop with
  | nil => cases h : drop x <;> simp [h]
  | cons y kept => simp

theorem trimEnd_eq (text : List Char) : trimEnd text = text.rdropWhile isBlank := by
  induction text with
  | nil => rfl
  | cons c rest ih =>
    rw [trimEnd, rdropWhile_cons, ih]
    cases rest.rdropWhile isBlank <;> rfl

theorem trimEnd_eq_nil_iff : trimEnd text = [] ↔ ∀ c ∈ text, isBlank c = true := by
  rw [trimEnd_eq, List.rdropWhile_eq_nil_iff]

theorem trimEnd_subset (text : List Char) : trimEnd text ⊆ text := by
  rw [trimEnd_eq]
  exact (List.rdropWhile_prefix isBlank text).subset

theorem settled_iff : Settled text ↔ ∃ last ∈ text.getLast?, isBlank last = false := by
  constructor
  · rintro ⟨front, last, rfl, visible⟩
    exact ⟨last, List.getLast?_concat, visible⟩
  · rintro ⟨last, ends, visible⟩
    obtain ⟨front, rfl⟩ := List.getLast?_eq_some_iff.mp ends
    exact ⟨front, last, rfl, visible⟩

theorem settled_trimEnd (kept : trimEnd text ≠ []) : Settled (trimEnd text) := by
  rw [trimEnd_eq] at kept ⊢
  have visible := List.rdropWhile_last_not isBlank text kept
  exact settled_iff.mpr ⟨_, List.getLast?_eq_some_getLast kept, Bool.eq_false_iff.mpr visible⟩

/-- A text that ends in something visible does not end in a carriage return. -/
theorem Settled.getLast?_ne (settled : Settled text) : text.getLast? ≠ some '\r' := by
  obtain ⟨last, ends, visible⟩ := settled_iff.mp settled
  rw [ends]
  rintro ⟨⟩
  exact absurd visible (by decide)

theorem Settled.visible (settled : Settled text) : ∃ c ∈ text, isBlank c = false := by
  obtain ⟨last, ends, visible⟩ := settled_iff.mp settled
  exact ⟨last, List.mem_of_getLast? ends, visible⟩

/-! ### Lines -/

theorem lines_cons {c : Char} (unbroken : c ≠ '\n') (open_ : c = '\r' → rest.head? ≠ some '\n') :
    lines (c :: rest) =
      match lines rest with
      | [] => [[c]]
      | line :: later => (c :: line) :: later := by
  have closed : ∀ later, c = '\r' → rest = '\n' :: later → False := by
    rintro later rfl rfl
    exact open_ rfl rfl
  exact lines.eq_4 c rest unbroken closed

theorem not_mem_of_mem_lines (member : line ∈ lines text) : '\n' ∉ line := by
  fun_induction lines text generalizing line with
  | case1 => cases member
  | case2 rest ih | case3 rest ih =>
    rcases List.mem_cons.mp member with rfl | later
    · exact List.not_mem_nil
    · exact ih later
  | case4 c rest unbroken _ _ ih =>
    obtain rfl := List.mem_singleton.mp member
    intro newline
    exact unbroken (List.mem_singleton.mp newline).symm
  | case5 c rest unbroken _ first later shape ih =>
    rw [shape] at ih
    rcases List.mem_cons.mp member with rfl | other
    · intro newline
      rcases List.mem_cons.mp newline with same | inside
      · exact unbroken same.symm
      · exact ih List.mem_cons_self inside
    · exact ih (List.mem_cons_of_mem _ other)

theorem lines_single (filled : piece ≠ []) (unbroken : '\n' ∉ piece) : lines piece = [piece] := by
  induction piece with
  | nil => exact absurd rfl filled
  | cons c rest ih =>
    rw [List.mem_cons, not_or] at unbroken
    have closed : c = '\r' → rest.head? ≠ some '\n' := by
      intro _ newline
      exact unbroken.2 (List.mem_of_mem_head? newline)
    rw [lines_cons (Ne.symm unbroken.1) closed]
    cases rest with
    | nil => rfl
    | cons next later => rw [ih (List.cons_ne_nil _ _) unbroken.2]

theorem lines_append_newline (unbroken : '\n' ∉ piece) (ends : piece.getLast? ≠ some '\r')
    (rest : List Char) : lines (piece ++ '\n' :: rest) = piece :: lines rest := by
  induction piece with
  | nil => rfl
  | cons c piece ih =>
    rw [List.mem_cons, not_or] at unbroken
    have closed : c = '\r' → (piece ++ '\n' :: rest).head? ≠ some '\n' := by
      rintro rfl newline
      cases piece with
      | nil => exact ends rfl
      | cons next later => exact unbroken.2 (Option.some.inj newline ▸ List.mem_cons_self)
    have later : piece.getLast? ≠ some '\r' := by
      cases piece with
      | nil => simp
      | cons next later => simpa using ends
    rw [List.cons_append, lines_cons (Ne.symm unbroken.1) closed, ih unbroken.2 later]

theorem lines_intercalate {pieces : List (List Char)} (filled : pieces ≠ [])
    (settled : ∀ piece ∈ pieces, Settled piece ∧ '\n' ∉ piece) :
    lines (['\n'].intercalate pieces) = pieces := by
  induction pieces with
  | nil => exact absurd rfl filled
  | cons piece pieces ih =>
    rw [List.forall_mem_cons] at settled
    obtain ⟨⟨ends, unbroken⟩, others⟩ := settled
    cases pieces with
    | nil =>
      rw [List.intercalate_singleton]
      exact lines_single ends.filled unbroken
    | cons next later =>
      rw [List.intercalate_cons_cons, List.append_assoc, List.singleton_append,
        lines_append_newline unbroken ends.getLast?_ne, ih (List.cons_ne_nil _ _) others]

end TypedClient.Text
