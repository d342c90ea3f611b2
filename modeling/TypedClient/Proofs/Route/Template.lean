import TypedClient.Proofs.Operation.Parts

/-!
Route templates taken apart and put together. Writing the parts of a route one after the other gives the
route back, no two static parts are neighbours, and a placeholder that is cut off at the end and appended
again leaves the interpolated route as it was.
-/
namespace TypedClient.Route

/-! ### Parsing -/

def Part.written : Part → List Char
  | .static text => text.toList
  | .placeholder name => '\x7b' :: name.toList ++ ['\x7d']

theorem Part.written_ofText (text : List Char) : (Part.ofText text).flatMap Part.written = text := by
  unfold Part.ofText
  split
  · rename_i empty
    rw [List.isEmpty_iff.mp empty]
    rfl
  · simp [Part.written]

theorem written_partsOutside (text rest : List Char) :
    (partsOutside text rest).flatMap Part.written = text ++ rest ∧
      ∀ name, (partsInside text name rest).flatMap Part.written = text ++ '\x7b' :: name ++ rest := by
  induction rest generalizing text with
  | nil => simp [partsOutside, partsInside, Part.written_ofText]
  | cons c rest ih =>
    constructor
    · by_cases opens : c = '\x7b'
      · subst opens
        simpa [partsOutside] using (ih text).2 []
      · simpa [partsOutside, opens] using (ih (text ++ [c])).1
    · intro name
      by_cases closes : c = '\x7d'
      · subst closes
        simp [partsInside, Part.written_ofText, Part.written, (ih []).1]
      · simpa [partsInside, closes] using (ih text).2 (name ++ [c])

/-- A route is told by its parts. -/
theorem written_parse (route : String) : (parse route).flatMap Part.written = route.toList :=
  (written_partsOutside [] route.toList).1

/-- A static part is followed by a placeholder or by nothing. -/
def Apart (template : List Part) : Prop :=
  template.IsChain fun part next => ∀ text, part = .static text → ∃ name, next = .placeholder name

theorem Apart.tail {part : Part} {template : List Part} (apart : Apart (part :: template)) :
    Apart template := by
  cases apart with
  | singleton => exact .nil
  | cons_cons _ later => exact later

theorem Apart.dynamic {text : String} {template : List Part}
    (apart : Apart (.static text :: template)) (other : String) :
    template.head? ≠ some (.static other) := by
  intro first
  obtain ⟨template, rfl⟩ := List.head?_eq_some_iff.mp first
  obtain ⟨name, same⟩ := (List.isChain_cons_cons.mp apart).1 text rfl
  cases same

theorem apart_ofText (text : List Char) : Apart (Part.ofText text) := by
  unfold Part.ofText
  split
  · exact .nil
  · exact .singleton _

theorem apart_placeholder {template : List Part} (apart : Apart template) (name : String) :
    Apart (.placeholder name :: template) := by
  cases template with
  | nil => exact .singleton _
  | cons part rest => exact .cons_cons (fun _ other => nomatch other) apart

theorem apart_ofText_append {template : List Part} (apart : Apart template) (text : List Char)
    (name : String) : Apart (Part.ofText text ++ .placeholder name :: template) := by
  unfold Part.ofText
  split
  · exact apart_placeholder apart name
  · exact .cons_cons (fun _ _ => ⟨name, rfl⟩) (apart_placeholder apart name)

theorem apart_partsOutside (text rest : List Char) :
    Apart (partsOutside text rest) ∧ ∀ name, Apart (partsInside text name rest) := by
  induction rest generalizing text with
  | nil => exact ⟨apart_ofText text, fun name => apart_ofText (text ++ '\x7b' :: name)⟩
  | cons c rest ih =>
    constructor
    · by_cases opens : c = '\x7b'
      · subst opens
        simpa [partsOutside] using (ih text).2 []
      · simpa [partsOutside, opens] using (ih (text ++ [c])).1
    · intro name
      by_cases closes : c = '\x7d'
      · subst closes
        simpa [partsInside] using apart_ofText_append (ih []).1 text _
      · simpa [partsInside, closes] using (ih text).2 (name ++ [c])

theorem apart_parse (route : String) : Apart (parse route) :=
  (apart_partsOutside [] route.toList).1

/-! ### A placeholder at the end -/

theorem exists_of_endsWithPlaceholder {template : List Part}
    (ends : endsWithPlaceholder template = true) :
    ∃ front name, template = front ++ [.placeholder name] := by
  unfold endsWithPlaceholder at ends
  split at ends
  · rename_i name before rest reversed
    exact ⟨(.static before :: rest).reverse, name, by
      rw [← List.reverse_cons, ← reversed, List.reverse_reverse]⟩
  · cases ends

theorem interpolate_append (front : List Part) (name identifier : String) {identifiers : List String}
    (each : identifiers.length = (Endpoint.placeholders front).length) :
    interpolate (front ++ [.placeholder name]) (identifiers ++ [identifier]) =
      interpolate front identifiers ++ "$\x7b" ++ identifier ++ "\x7d" := by
  induction front generalizing identifiers with
  | nil =>
    obtain rfl := List.length_eq_zero_iff.mp each
    simp [interpolate]
  | cons part front ih =>
    cases part with
    | static text =>
      rw [List.cons_append, interpolate, interpolate, ih each]
      simp only [String.append_assoc]
    | placeholder other =>
      cases identifiers with
      | nil => cases each
      | cons first later =>
        rw [List.cons_append, List.cons_append, interpolate, interpolate,
          ih (Nat.succ.inj each)]
        simp only [String.append_assoc]

end TypedClient.Route
