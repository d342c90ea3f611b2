import TypedClient.Proofs.Route.Reading

/-!
Routes read segment by segment, as default names are. As long as no slash stands inside braces, the
placeholders of the segments are those of the route.
-/
namespace TypedClient.Route
open Endpoint

/-- The placeholders of a text. -/
def bracedNames (text : List Char) : List String :=
  placeholders (partsOutside [] text)

theorem Reads.bracedNames_eq {text : List Char} {template : List Part} (reads : Reads text template) :
    bracedNames text = placeholders template :=
  congrArg placeholders reads.partsOutside

theorem reads_chars (text : List Char) : Reads text (partsOutside [] text) := by
  have reads := reads_parse (String.ofList text)
  rwa [parse, String.toList_ofList] at reads

theorem bracedNames_unclosed {text : List Char}
    (unclosed : ∀ before after, text = before ++ '\x7b' :: after → '\x7d' ∉ after) :
    bracedNames text = [] :=
  (Reads.text unclosed).bracedNames_eq.trans (placeholders_ofText text)

theorem bracedNames_plain {text : List Char} (plain : '\x7b' ∉ text) : bracedNames text = [] := by
  apply bracedNames_unclosed
  rintro before after rfl
  simp at plain

theorem bracedNames_placeholder {before name rest : List Char} (plain : '\x7b' ∉ before)
    (closed : '\x7d' ∉ name) :
    bracedNames (before ++ '\x7b' :: (name ++ '\x7d' :: rest)) =
      String.ofList name :: bracedNames rest := by
  have reads := Reads.placeholder plain closed (reads_chars rest)
  rw [List.append_assoc, List.cons_append] at reads
  rw [reads.bracedNames_eq, placeholders_cons]
  rfl

/-! ### Splitting at slashes -/

/-- A slash that is in no placeholder splits a route into two that can be read apart. -/
theorem Reads.bracedNames_split {text : List Char} {template : List Part} (reads : Reads text template)
    (within : ∀ name ∈ placeholders template, '/' ∉ name.toList) {front back : List Char}
    (split : text = front ++ '/' :: back) :
    placeholders template = bracedNames front ++ bracedNames back := by
  induction reads generalizing front with
  | @text text unclosed =>
    have first : bracedNames front = [] := by
      apply bracedNames_unclosed
      rintro before after rfl closes
      exact unclosed before (after ++ '/' :: back) (by simp [split]) (by simp [closes])
    have second : bracedNames back = [] := by
      apply bracedNames_unclosed
      rintro before after rfl
      exact unclosed (front ++ '/' :: before) after (by simp [split])
    rw [placeholders_ofText, first, second, List.append_nil]
  | @placeholder before name rest parts plain closed later ih =>
    rw [placeholders_cons, List.forall_mem_cons, String.toList_ofList] at within
    rw [List.append_assoc, List.cons_append] at split
    rw [placeholders_cons]
    -- The slash stands before the first placeholder, in it or behind it.
    rcases split_at split with ⟨held, rfl, braced⟩ | ⟨held, rfl, braced⟩
    · rcases split_at braced with ⟨behind, rfl, remains⟩ | ⟨inside, rfl, slashed⟩
      · rw [bracedNames_placeholder plain closed, ih within.2 remains, List.cons_append]
      · cases inside with
        | nil => cases (List.cons.inj slashed).1
        | cons c inside =>
          obtain rfl := (List.cons.inj slashed).1
          simp at within
    · cases held with
      | nil => cases (List.cons.inj braced).1
      | cons c held =>
        obtain ⟨rfl, remains⟩ := List.cons.inj braced
        rw [List.mem_append, not_or, List.mem_cons, not_or] at plain
        rw [remains, List.append_eq, bracedNames_plain plain.1, List.nil_append,
          bracedNames_placeholder plain.2.2 closed, later.bracedNames_eq]

theorem bracedNames_intercalate (pieces : List (List Char))
    (within : ∀ name ∈ bracedNames (['/'].intercalate pieces), '/' ∉ name.toList) :
    bracedNames (['/'].intercalate pieces) = pieces.flatMap bracedNames := by
  induction pieces with
  | nil => rfl
  | cons piece pieces ih =>
    cases pieces with
    | nil => simp
    | cons next later =>
      have joined : ['/'].intercalate (piece :: next :: later) =
          piece ++ '/' :: ['/'].intercalate (next :: later) := by
        rw [List.intercalate_cons_cons, List.append_assoc, List.singleton_append]
      have split : bracedNames (['/'].intercalate (piece :: next :: later)) =
          bracedNames piece ++ bracedNames (['/'].intercalate (next :: later)) :=
        (reads_chars _).bracedNames_split within joined
      have behind : ∀ name ∈ bracedNames (['/'].intercalate (next :: later)), '/' ∉ name.toList := by
        intro name member
        exact within name (split ▸ List.mem_append_right _ member)
      rw [split, ih behind]
      rfl

/-- No placeholder is found in a segment that is none of the route. -/
theorem mem_placeholders_of_segments {route name : String}
    (within : ∀ name ∈ placeholders (parse route), '/' ∉ name.toList)
    (member : name ∈ placeholders ((segments route).flatMap parse)) : name ∈ placeholders (parse route) := by
  have joined : ['/'].intercalate (route.toList.splitOn '/') = route.toList := List.intercalate_splitOn '/'
  have each := bracedNames_intercalate (route.toList.splitOn '/') (by rwa [joined])
  rw [joined] at each
  obtain ⟨part, inside, named⟩ := List.mem_filterMap.mp member
  obtain ⟨segment, listed, inside⟩ := List.mem_flatMap.mp inside
  obtain ⟨piece, kept, rfl⟩ := List.mem_map.mp listed
  rw [parse, String.toList_ofList] at inside
  have found : name ∈ bracedNames piece := List.mem_filterMap.mpr ⟨part, inside, named⟩
  change name ∈ bracedNames route.toList
  rw [each]
  exact List.mem_flatMap.mpr ⟨piece, (List.mem_filter.mp kept).1, found⟩

end TypedClient.Route
