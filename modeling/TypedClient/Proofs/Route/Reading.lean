import TypedClient.Proofs.Route.Template

/-!
Routes as texts. `Reads` says which template a route stands for without the reader that finds it: a
placeholder begins at the first opening brace and ends at the next closing one, and what is never closed
is text. Every route stands for exactly one template, the one that `parse` gives.
-/
namespace TypedClient.Route
open Endpoint

/-- The text stands for the template. -/
inductive Reads : List Char → List Part → Prop where
  | text {text : List Char}
      (unclosed : ∀ before after, text = before ++ '\x7b' :: after → '\x7d' ∉ after) :
      Reads text (Part.ofText text)
  | placeholder {before name rest : List Char} {parts : List Part} (plain : '\x7b' ∉ before)
      (closed : '\x7d' ∉ name) (later : Reads rest parts) :
      Reads (before ++ '\x7b' :: name ++ '\x7d' :: rest)
        (Part.ofText before ++ .placeholder (String.ofList name) :: parts)

/-! ### Reading is parsing -/

/-- Outside braces no opening one has been read, and inside no closing one. -/
theorem reads_partsOutside (rest : List Char) :
    (∀ text, '\x7b' ∉ text → Reads (text ++ rest) (partsOutside text rest)) ∧
      ∀ text name, '\x7b' ∉ text → '\x7d' ∉ name →
        Reads (text ++ '\x7b' :: name ++ rest) (partsInside text name rest) := by
  induction rest with
  | nil =>
    constructor
    · intro text plain
      rw [List.append_nil, partsOutside]
      refine .text fun before after same => (plain ?_).elim
      simp [same]
    · intro text name plain open_
      rw [List.append_nil, partsInside]
      refine .text fun before after same inside => ?_
      rcases List.append_eq_append_iff.mp same with ⟨front, -, ends⟩ | ⟨front, rfl, begins⟩
      · have member : '\x7d' ∈ '\x7b' :: name := ends ▸ by simp [inside]
        simp [open_] at member
      · cases front with
        | nil => exact open_ ((List.cons.inj begins).2 ▸ inside)
        | cons c front => simp [← (List.cons.inj begins).1] at plain
  | cons c rest ih =>
    constructor
    · intro text plain
      by_cases opens : c = '\x7b'
      · subst opens
        simpa [partsOutside] using ih.2 text [] plain (List.not_mem_nil)
      · have plain : '\x7b' ∉ text ++ [c] := by simp [plain, Ne.symm opens]
        simpa [partsOutside, opens] using ih.1 _ plain
    · intro text name plain open_
      by_cases closes : c = '\x7d'
      · subst closes
        rw [partsInside]
        exact .placeholder plain open_ (by simpa using ih.1 [] List.not_mem_nil)
      · have open_ : '\x7d' ∉ name ++ [c] := by simp [open_, Ne.symm closes]
        simpa [partsInside, closes] using ih.2 text _ plain open_

theorem reads_parse (route : String) : Reads route.toList (parse route) :=
  (reads_partsOutside route.toList).1 [] List.not_mem_nil

theorem partsOutside_plain {before : List Char} (plain : '\x7b' ∉ before) (text rest : List Char) :
    partsOutside text (before ++ rest) = partsOutside (text ++ before) rest := by
  induction before generalizing text with
  | nil => simp
  | cons c before ih =>
    rw [List.mem_cons, not_or] at plain
    rw [List.cons_append, partsOutside, ih plain.2]
    · simp
    · exact Ne.symm plain.1

theorem partsInside_closed {name : List Char} (closed : '\x7d' ∉ name) (text front rest : List Char) :
    partsInside text front (name ++ '\x7d' :: rest) =
      Part.ofText text ++ .placeholder (String.ofList (front ++ name)) :: partsOutside [] rest := by
  induction name generalizing front with
  | nil => simp [partsInside]
  | cons c name ih =>
    rw [List.mem_cons, not_or] at closed
    rw [List.cons_append, partsInside, ih closed.2]
    · simp
    · exact Ne.symm closed.1

theorem partsInside_unclosed {rest : List Char} (unclosed : '\x7d' ∉ rest) (text name : List Char) :
    partsInside text name rest = Part.ofText (text ++ '\x7b' :: name ++ rest) := by
  induction rest generalizing name with
  | nil => simp [partsInside]
  | cons c rest ih =>
    rw [List.mem_cons, not_or] at unclosed
    rw [partsInside, ih unclosed.2]
    · simp
    · exact Ne.symm unclosed.1

theorem partsOutside_unclosed {rest : List Char}
    (unclosed : ∀ before after, rest = before ++ '\x7b' :: after → '\x7d' ∉ after) (text : List Char) :
    partsOutside text rest = Part.ofText (text ++ rest) := by
  induction rest generalizing text with
  | nil => simp [partsOutside]
  | cons c rest ih =>
    by_cases opens : c = '\x7b'
    · subst opens
      rw [partsOutside, partsInside_unclosed (unclosed [] rest rfl)]
      simp
    · rw [partsOutside, ih fun before after same => unclosed (c :: before) after (by rw [same]; rfl)]
      · simp
      · exact opens

theorem Reads.partsOutside {text : List Char} {template : List Part} (reads : Reads text template) :
    partsOutside [] text = template := by
  induction reads with
  | text unclosed => exact partsOutside_unclosed unclosed []
  | @placeholder before name rest parts plain closed _ ih =>
    rw [List.append_assoc, partsOutside_plain plain, List.cons_append, Route.partsOutside,
      partsInside_closed closed, ih]
    rfl

/-- A route stands for one template. -/
theorem parse_eq_iff {route : String} {template : List Part} :
    parse route = template ↔ Reads route.toList template :=
  ⟨fun same => same ▸ reads_parse route, Reads.partsOutside⟩

/-! ### The last segment -/

/-- What follows the last slash, or all without a slash. -/
def LastSegment (route segment : List Char) : Prop :=
  '/' ∉ segment ∧ (route = segment ∨ ∃ front, route = front ++ '/' :: segment)

theorem endsWithPlaceholder_iff_exists {template : List Part} :
    endsWithPlaceholder template = true ↔ ∃ front before name,
      template = front ++ [.static before, .placeholder name] ∧ before.toList.getLast? = some '/' := by
  unfold endsWithPlaceholder
  constructor
  · intro ends
    split at ends
    · rename_i name before rest reversed
      refine ⟨rest.reverse, before, name, ?_, eq_of_beq ends⟩
      rw [← List.reverse_reverse template, reversed]
      simp
    · cases ends
  · rintro ⟨front, before, name, rfl, last⟩
    simp [last]

theorem placeholders_cons (before : List Char) (name : String) (rest : List Part) :
    placeholders (Part.ofText before ++ .placeholder name :: rest) = name :: placeholders rest := by
  unfold Part.ofText placeholders
  split <;> simp

theorem placeholders_ofText (text : List Char) : placeholders (Part.ofText text) = [] := by
  unfold Part.ofText
  split <;> rfl

theorem Reads.closed {text : List Char} {template : List Part} (reads : Reads text template) :
    ∀ name ∈ placeholders template, '\x7d' ∉ name.toList := by
  induction reads with
  | text => simp [placeholders_ofText]
  | placeholder _ closed _ ih => simpa [placeholders_cons, closed] using ih

section Splitting

variable {α : Type} {x c : α} {front back before later : List α}

theorem split_at (same : before ++ x :: later = front ++ back) :
    (∃ rest, front = before ++ x :: rest ∧ later = rest ++ back) ∨
      ∃ rest, before = front ++ rest ∧ back = rest ++ x :: later := by
  rcases List.append_eq_append_iff.mp same with ⟨rest, held, ends⟩ | ⟨rest, held, ends⟩
  · cases rest with
    | nil => exact .inr ⟨[], by simpa using held.symm, ends.symm⟩
    | cons y rest =>
      obtain ⟨rfl, rfl⟩ := List.cons.inj ends
      exact .inl ⟨rest, held, rfl⟩
  · exact .inr ⟨rest, held, ends⟩

theorem last_of_append (same : front ++ [x] = before ++ c :: later) :
    c = x ∨ ∃ rest, later = rest ++ [x] := by
  rcases List.eq_nil_or_concat later with rfl | ⟨rest, y, rfl⟩
  · exact .inl (List.singleton_inj.mp (List.append_inj' same rfl).2).symm
  · have same : front ++ [x] = (before ++ c :: rest) ++ [y] := by simpa using same
    obtain rfl := List.singleton_inj.mp (List.append_inj' same rfl).2
    exact .inr ⟨rest, List.concat_eq_append⟩

end Splitting

/-- A last segment that is one placeholder is read as such, after a static part that ends in a slash. -/
theorem Reads.endsWithPlaceholder {text : List Char} {template : List Part} (reads : Reads text template)
    (within : ∀ name ∈ placeholders template, '/' ∉ name.toList) {front name : List Char}
    (ends : text = front ++ ['/'] ++ '\x7b' :: (name ++ ['\x7d'])) (closed : '\x7d' ∉ name) :
    endsWithPlaceholder template = true := by
  induction reads generalizing front with
  | @text text unclosed =>
    have inside : '\x7d' ∉ name ++ ['\x7d'] := unclosed (front ++ ['/']) _ ends
    simp at inside
  | @placeholder before inner rest parts plain _ later ih =>
    rw [placeholders_cons, List.forall_mem_cons, String.toList_ofList] at within
    rw [List.append_assoc, List.cons_append] at ends
    rcases split_at ends with ⟨held, opened, tail⟩ | ⟨held, rfl, tail⟩
    · rcases split_at tail with ⟨behind, rfl, remains⟩ | ⟨behind, rfl, -⟩
      · -- The placeholder is closed before the last segment, which is then at the end of the rest.
        have shifted : front ++ ['/'] = (before ++ '\x7b' :: inner) ++ '\x7d' :: behind := by
          simpa using opened
        obtain ⟨behind, rfl⟩ := (last_of_append shifted).resolve_left (by decide)
        obtain ⟨front, before', name', same, last⟩ :=
          endsWithPlaceholder_iff_exists.mp (ih within.2 remains)
        refine endsWithPlaceholder_iff_exists.mpr
          ⟨Part.ofText before ++ .placeholder (String.ofList inner) :: front, before', name', ?_, last⟩
        rw [same, List.append_assoc, List.cons_append]
      · -- A slash within the braces is excluded.
        rcases last_of_append opened with brace | ⟨held, rfl⟩
        · cases brace
        · simp at within
    · cases held with
      | cons c held =>
        obtain rfl : '\x7b' = c := (List.cons.inj tail).1
        simp at plain
      | nil =>
        rcases split_at (List.cons.inj tail).2.symm with ⟨held, rfl, -⟩ | ⟨held, rfl, only⟩
        · simp at closed
        · obtain ⟨rfl, rfl⟩ : held = [] ∧ rest = [] := by
            cases held <;> simp_all
          have ended := later.partsOutside
          refine endsWithPlaceholder_iff_exists.mpr
            ⟨[], String.ofList (front ++ ['/']), String.ofList name, ?_, ?_⟩
          · rw [← ended]
            simp [Part.ofText, Route.partsOutside]
          · simp

/-- The template of a route ends in a placeholder behind a slash exactly if the last segment of the route
is one placeholder. -/
theorem endsWithPlaceholder_iff {route : String} (rooted : route.toList.head? = some '/')
    (within : ∀ name ∈ placeholders (parse route), '/' ∉ name.toList) :
    endsWithPlaceholder (parse route) = true ↔
      ∃ name, '\x7d' ∉ name ∧ LastSegment route.toList ('\x7b' :: name ++ ['\x7d']) := by
  constructor
  · intro ends
    obtain ⟨front, before, name, same, last⟩ := endsWithPlaceholder_iff_exists.mp ends
    have listed : name ∈ placeholders (parse route) := by simp [same, placeholders]
    obtain ⟨before', slash⟩ := List.getLast?_eq_some_iff.mp last
    refine ⟨name.toList, (reads_parse route).closed name listed, by simp [within name listed], .inr ?_⟩
    refine ⟨front.flatMap Part.written ++ before', ?_⟩
    rw [← written_parse route, same]
    simp [Part.written, slash]
  · rintro ⟨name, closed, -, whole | ⟨front, ends⟩⟩
    · simp [whole] at rooted
    · have ends : route.toList = front ++ ['/'] ++ '\x7b' :: (name ++ ['\x7d']) := by simpa using ends
      exact (reads_parse route).endsWithPlaceholder within ends closed

end TypedClient.Route
