import Mathlib.Data.List.Chain
import TypedClient.DocComment
import TypedClient.Proofs.Text.Lines

/-!
Documentation blocks. Whatever texts are documented, a block opens and closes on lines of their own, every
line between starts with a star, and the end mark stands nowhere but at the end.
-/
namespace TypedClient.DocComment
open Text

/-- Text behind the star of a line. -/
def Told (line : List Char) : Prop :=
  ∃ c ∈ line.drop 2, isBlank c = false

/-- The text is a block with these lines between its marks. -/
structure Encloses (inner : List (List Char)) (block : String) : Prop where
  lines : block.toList.splitOn '\n' = "/**".toList :: inner ++ [" */".toList]
  ends : ∀ before after, block.toList = before ++ '*' :: '/' :: after → after = []
  starred : ∀ line ∈ inner, " *".toList <+: line
  first : ∃ line ∈ inner.head?, Told line
  last : ∃ line ∈ inner.getLast?, Told line

def IsBlock (block : String) : Prop :=
  ∃ inner, Encloses inner block

def Blank (texts : List String) : Prop :=
  ∀ text ∈ texts, ∀ line ∈ Text.lines text.toList, ∀ c ∈ line, isBlank c = true

/-- What stands for the texts is nothing exactly if they are blank, and a block otherwise. -/
structure Documents (texts : List String) (doc : Option String) : Prop where
  none_iff : doc = none ↔ Blank texts
  block : ∀ block, doc = some block → IsBlock block

/-! ### End marks -/

/-- No star stands before a slash. -/
def Endless (text : List Char) : Prop :=
  text.IsChain fun c next => ¬(c = '*' ∧ next = '/')

theorem head?_breakEndMarks (line : List Char) : (breakEndMarks line).head? = line.head? := by
  fun_cases breakEndMarks line <;> rfl

theorem endless_breakEndMarks (line : List Char) : Endless (breakEndMarks line) := by
  fun_induction breakEndMarks line with
  | case1 => exact .nil
  | case2 rest ih =>
    refine .cons_cons (by decide) (.cons_cons (by decide) (List.isChain_cons.mpr ⟨?_, ih⟩))
    intro next _ mark
    exact absurd mark.1 (by decide)
  | case3 c rest other ih =>
    refine List.isChain_cons.mpr ⟨?_, ih⟩
    rw [head?_breakEndMarks]
    rintro next head ⟨rfl, rfl⟩
    obtain ⟨later, rfl⟩ := List.head?_eq_some_iff.mp head
    exact other later rfl rfl

theorem subset_breakEndMarks (line : List Char) : line ⊆ breakEndMarks line := by
  fun_induction breakEndMarks line with
  | case1 => exact List.Subset.refl []
  | case2 rest ih => exact List.cons_subset_cons _ (List.subset_cons_of_subset _ (List.cons_subset_cons _ ih))
  | case3 c rest _ ih => exact List.cons_subset_cons c ih

theorem mem_breakEndMarks {line : List Char} {c : Char} (member : c ∈ breakEndMarks line) :
    c = '\\' ∨ c ∈ line := by
  fun_induction breakEndMarks line with
  | case1 => exact .inr member
  | case2 rest ih =>
    simp only [List.mem_cons] at member ⊢
    rcases member with star | bar | slash | later
    · exact .inr (.inl star)
    · exact .inl bar
    · exact .inr (.inr (.inl slash))
    · exact (ih later).imp_right fun inside => .inr (.inr inside)
  | case3 c rest _ ih =>
    rcases List.mem_cons.mp member with rfl | later
    · exact .inr List.mem_cons_self
    · exact (ih later).imp_right (List.mem_cons_of_mem c)

theorem getLast?_breakEndMarks (line : List Char) :
    (breakEndMarks line).getLast? = line.getLast? := by
  fun_induction breakEndMarks line with
  | case1 => rfl
  | case2 rest ih => simp only [List.getLast?_cons, ih, Option.getD_some]
  | case3 c rest _ ih => rw [List.getLast?_cons, List.getLast?_cons, ih]

theorem settled_breakEndMarks {line : List Char} (settled : Settled line) :
    Settled (breakEndMarks line) := by
  rw [settled_iff, getLast?_breakEndMarks]
  exact settled_iff.mp settled

theorem Endless.newline {before after : List Char} (first : Endless before) (later : Endless after) :
    Endless (before ++ '\n' :: after) := by
  refine List.isChain_append.mpr ⟨first, List.isChain_cons.mpr ⟨?_, later⟩, ?_⟩
  · rintro next - ⟨newline, -⟩
    exact absurd newline (by decide)
  · rintro last - next head ⟨-, slash⟩
    cases Option.some.inj head
    exact absurd slash (by decide)

theorem endless_intercalate {pieces : List String} (each : ∀ piece ∈ pieces, Endless piece.toList) :
    Endless ("\n".intercalate pieces).toList := by
  induction pieces with
  | nil => exact .nil
  | cons piece pieces ih =>
    rw [List.forall_mem_cons] at each
    by_cases none : pieces = []
    · rw [none, String.intercalate_singleton]
      exact each.1
    · rw [String.intercalate_cons_of_ne_nil none, String.toList_append, String.toList_append,
        List.append_assoc]
      exact each.1.newline (ih each.2)

/-! ### Lines of the body -/

theorem dropTrailingEmpty_eq (body : List (List Char)) :
    dropTrailingEmpty body = body.rdropWhile List.isEmpty := by
  induction body with
  | nil => rfl
  | cons line rest ih =>
    rw [dropTrailingEmpty, rdropWhile_cons, ih]
    cases rest.rdropWhile List.isEmpty <;> rfl

section Body

variable {texts : List String}

theorem bodyLines_eq_nil_iff : bodyLines texts = [] ↔ Blank texts := by
  set trimmed := (texts.flatMap fun text => Text.lines text.toList).map trimEnd with defined
  have dropped : bodyLines texts = [] ↔ trimmed.dropWhile List.isEmpty = [] := by
    rw [bodyLines, dropTrailingEmpty_eq, List.rdropWhile_eq_nil_iff]
    constructor
    · intro empty
      by_contra filled
      have shown := List.head_dropWhile_not List.isEmpty filled
      rw [empty _ (List.head_mem filled)] at shown
      cases shown
    · intro none
      rw [none]
      exact List.forall_mem_nil _
  rw [dropped, List.dropWhile_eq_nil_iff, defined, List.forall_mem_map, List.forall_mem_flatMap]
  simp only [List.isEmpty_iff, trimEnd_eq_nil_iff, Blank]

theorem trimmed_of_mem {line : List Char} (member : line ∈ bodyLines texts) :
    ∃ text ∈ texts, ∃ whole ∈ Text.lines text.toList, trimEnd whole = line := by
  rw [bodyLines, dropTrailingEmpty_eq] at member
  have kept := (List.dropWhile_suffix _).subset ((List.rdropWhile_prefix _ _).subset member)
  obtain ⟨whole, among, rfl⟩ := List.mem_map.mp kept
  obtain ⟨text, given, inside⟩ := List.mem_flatMap.mp among
  exact ⟨text, given, whole, inside, rfl⟩

theorem settled_of_mem {line : List Char} (member : line ∈ bodyLines texts) (filled : line ≠ []) :
    Settled line := by
  obtain ⟨text, -, whole, -, rfl⟩ := trimmed_of_mem member
  exact settled_trimEnd filled

theorem unbroken_of_mem {line : List Char} (member : line ∈ bodyLines texts) : '\n' ∉ line := by
  obtain ⟨text, -, whole, inside, rfl⟩ := trimmed_of_mem member
  exact fun newline => not_mem_of_mem_lines inside (trimEnd_subset whole newline)

theorem head_bodyLines (filled : bodyLines texts ≠ []) : (bodyLines texts).head filled ≠ [] := by
  have front : bodyLines texts <+:
      ((texts.flatMap fun text => Text.lines text.toList).map trimEnd).dropWhile List.isEmpty := by
    rw [bodyLines, dropTrailingEmpty_eq]
    exact List.rdropWhile_prefix _ _
  rw [front.head filled]
  exact List.isEmpty_eq_false_iff.mp (List.head_dropWhile_not _ _)

theorem getLast_bodyLines (filled : bodyLines texts ≠ []) : (bodyLines texts).getLast filled ≠ [] := by
  have kept : ∀ body : List (List Char), ∀ some_ : dropTrailingEmpty body ≠ [],
      (dropTrailingEmpty body).getLast some_ ≠ [] := by
    intro body
    rw [dropTrailingEmpty_eq]
    intro some_ empty
    exact List.rdropWhile_last_not List.isEmpty body some_ (List.isEmpty_iff.mpr empty)
  exact kept _ filled

end Body

/-! ### Lines of the block -/

theorem decorate_filled {line : List Char} (filled : line ≠ []) :
    decorate line = " * ".toList ++ breakEndMarks line := by
  rw [decorate, if_neg (by simpa using filled)]
  rfl

theorem starred_decorate (line : List Char) : " *".toList <+: decorate line := by
  rw [decorate]
  split
  · exact List.prefix_rfl
  · exact ⟨_, rfl⟩

theorem endless_decorate (line : List Char) : Endless (decorate line) := by
  by_cases empty : line = []
  · rw [empty]
    exact .cons_cons (by decide) (.singleton _)
  · rw [decorate_filled empty]
    refine .cons_cons (by decide) (.cons_cons (by decide) (List.isChain_cons.mpr ⟨?_, ?_⟩))
    · rintro next - ⟨blank, -⟩
      exact absurd blank (by decide)
    · exact endless_breakEndMarks line

theorem settled_decorate {line : List Char} (settled : line ≠ [] → Settled line) :
    Settled (decorate line) := by
  by_cases empty : line = []
  · rw [empty]
    exact ⟨[' '], '*', rfl, by decide⟩
  · rw [decorate_filled empty]
    exact (settled_breakEndMarks (settled empty)).append_left _

theorem unbroken_decorate {line : List Char} (unbroken : '\n' ∉ line) : '\n' ∉ decorate line := by
  by_cases empty : line = []
  · rw [empty]
    decide
  · rw [decorate_filled empty, List.mem_append, not_or]
    refine ⟨by decide, fun newline => ?_⟩
    rcases mem_breakEndMarks newline with bar | inside
    · exact absurd bar (by decide)
    · exact unbroken inside

theorem told_decorate {line : List Char} (settled : Settled line) : Told (decorate line) := by
  obtain ⟨c, inside, visible⟩ := settled.visible
  rw [decorate_filled settled.filled]
  exact ⟨c, List.mem_cons_of_mem _ (subset_breakEndMarks line inside), visible⟩

/-! ### Blocks -/

/-- The lines of the block with this body. -/
def framed (body : List (List Char)) : List (List Char) :=
  "/**".toList :: body.map decorate ++ [" */".toList]

section Blocks

variable {texts : List String} {block : String}

theorem ofTexts_eq_none_iff : ofTexts texts = none ↔ Blank texts := by
  rw [← bodyLines_eq_nil_iff, ofTexts]
  split
  · rename_i empty
    exact iff_of_true rfl empty
  · rename_i filled
    exact iff_of_false (by simp) filled

theorem ofTexts_eq_some (made : ofTexts texts = some block) : bodyLines texts ≠ [] ∧
    block = "\n".intercalate ("/**" :: (bodyLines texts).map (String.ofList ∘ decorate) ++ [" */"]) := by
  rw [ofTexts] at made
  split at made
  · cases made
  · rename_i filled
    refine ⟨filled, ?_⟩
    have inner : (bodyLines texts).map (String.ofList ∘ decorate) ≠ [] := by
      simpa using filled
    rw [List.cons_append, String.intercalate_cons_of_ne_nil (by simp),
      String.intercalate_append_of_ne_nil inner (List.cons_ne_nil _ _), String.intercalate_singleton,
      ← Option.some.inj made]
    simp only [String.append_assoc]
    rfl

theorem toList_ofTexts (made : ofTexts texts = some block) :
    block.toList = ['\n'].intercalate (framed (bodyLines texts)) := by
  rw [(ofTexts_eq_some made).2, String.toList_intercalate]
  simp [framed, Function.comp_def]

theorem settled_framed {line : List Char} (member : line ∈ framed (bodyLines texts)) :
    Settled line ∧ '\n' ∉ line := by
  rw [framed, List.mem_append, List.mem_cons, List.mem_singleton] at member
  obtain (rfl | inside) | rfl := member
  · exact ⟨⟨['/', '*'], '*', rfl, by decide⟩, by decide⟩
  · obtain ⟨bare, among, rfl⟩ := List.mem_map.mp inside
    exact ⟨settled_decorate (settled_of_mem among), unbroken_decorate (unbroken_of_mem among)⟩
  · exact ⟨⟨[' ', '*'], '/', rfl, by decide⟩, by decide⟩

theorem splitOn_ofTexts (made : ofTexts texts = some block) :
    block.toList.splitOn '\n' = framed (bodyLines texts) := by
  rw [toList_ofTexts made]
  exact List.splitOn_intercalate '\n' (fun line member => (settled_framed member).2) (by simp [framed])

/-- No line of a block ends in a carriage return, so cutting a block at its line feeds gives its lines. -/
theorem lines_ofTexts (made : ofTexts texts = some block) :
    Text.lines block.toList = block.toList.splitOn '\n' := by
  rw [splitOn_ofTexts made, toList_ofTexts made]
  exact lines_intercalate (by simp [framed]) fun line => settled_framed

/-- Without its last slash a block has no end mark. -/
theorem endless_ofTexts (made : ofTexts texts = some block) :
    ∃ front, block.toList = front ++ ['/'] ∧ Endless front := by
  rw [(ofTexts_eq_some made).2, show " */" = " *" ++ "/" from rfl, intercalate_continued,
    String.toList_append]
  refine ⟨_, rfl, endless_intercalate ?_⟩
  intro piece member
  rw [List.mem_append, List.mem_cons, List.mem_singleton] at member
  obtain (rfl | inside) | rfl := member
  · exact .cons_cons (by decide) (.cons_cons (by decide) (.singleton _))
  · obtain ⟨bare, -, rfl⟩ := List.mem_map.mp inside
    rw [Function.comp_apply, String.toList_ofList]
    exact endless_decorate bare
  · exact .cons_cons (by decide) (.singleton _)

theorem ends_ofTexts (made : ofTexts texts = some block) {before after : List Char}
    (mark : block.toList = before ++ '*' :: '/' :: after) : after = [] := by
  obtain ⟨front, shape, endless⟩ := endless_ofTexts made
  rcases List.eq_nil_or_concat' after with none | ⟨later, last, rfl⟩
  · exact none
  · rw [shape, ← List.cons_append, ← List.cons_append, ← List.append_assoc] at mark
    rw [(List.append_inj' mark rfl).1] at endless
    have apart := (List.isChain_append.mp endless).2.1
    exact absurd ⟨rfl, rfl⟩ (List.isChain_cons_cons.mp apart).1

theorem ofTexts_enclosed (made : ofTexts texts = some block) :
    Encloses ((bodyLines texts).map decorate) block := by
  have filled := (ofTexts_eq_some made).1
  refine ⟨splitOn_ofTexts made, fun _ _ => ends_ofTexts made, ?_, ?_, ?_⟩
  · exact List.forall_mem_map.mpr fun line _ => starred_decorate line
  · have settled := settled_of_mem (List.head_mem filled) (head_bodyLines filled)
    rw [List.head?_map, List.head?_eq_some_head filled]
    exact ⟨_, rfl, told_decorate settled⟩
  · have settled := settled_of_mem (List.getLast_mem filled) (getLast_bodyLines filled)
    rw [List.getLast?_map, List.getLast?_eq_some_getLast filled]
    exact ⟨_, rfl, told_decorate settled⟩

theorem isBlock_ofTexts (made : ofTexts texts = some block) : IsBlock block :=
  ⟨_, ofTexts_enclosed made⟩

/-- The empty text stands where there is no documentation. -/
theorem isBlock_getD (filled : (ofTexts texts).getD "" ≠ "") : IsBlock ((ofTexts texts).getD "") := by
  cases made : ofTexts texts with
  | none => exact absurd (by rw [made]; rfl) filled
  | some block => exact isBlock_ofTexts made

theorem ofTexts_documents (texts : List String) : Documents texts (ofTexts texts) :=
  ⟨ofTexts_eq_none_iff, fun _ => isBlock_ofTexts⟩

example : ofTexts ["", " \nends */ here \r\n", "\n"] =
    some "/**\n * ends *\\/ here\n */" := by
  decide +kernel

end Blocks

end TypedClient.DocComment
