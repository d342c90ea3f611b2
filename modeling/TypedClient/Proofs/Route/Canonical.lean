import TypedClient.Proofs.Route.Reading

/-!
Canonical templates: those that a route can be read as. A route is read as the one canonical template
that is written like it, so reading loses nothing and no template has two readings.
-/
namespace TypedClient.Route

/-- Static text as it is, and the names of placeholders in braces. -/
def written (template : List Part) : String :=
  String.ofList (template.flatMap Part.written)

/-- No closing brace stands behind an opening one. -/
def Unclosed (text : List Char) : Prop :=
  ∀ before after, text = before ++ '\x7b' :: after → '\x7d' ∉ after

structure Canonical (template : List Part) : Prop where
  filled : ∀ text, .static text ∈ template → text ≠ ""
  apart : Apart template
  closed : ∀ name, .placeholder name ∈ template → '\x7d' ∉ name.toList
  /-- What opens a placeholder can only be text if the route ends with that text. -/
  plain : ∀ text, .static text ∈ template.dropLast → '\x7b' ∉ text.toList
  unclosed : ∀ text, template.getLast? = some (.static text) → Unclosed text.toList

/-! ### What is read is canonical -/

theorem ofText_of_ne_nil {text : List Char} (filled : text ≠ []) :
    Part.ofText text = [.static (String.ofList text)] := by
  rw [Part.ofText, List.isEmpty_eq_false_iff.mpr filled, if_neg Bool.false_ne_true]

theorem ofList_ne_empty {text : List Char} (filled : text ≠ []) : String.ofList text ≠ "" := by
  intro empty
  have chars := congrArg String.toList empty
  rw [String.toList_ofList] at chars
  exact filled chars

theorem canonical_nil : Canonical [] :=
  ⟨fun _ none => (nomatch none), .nil, fun _ none => (nomatch none), fun _ none => (nomatch none),
    fun _ none => nomatch none⟩

theorem canonical_singleton {text : String} (filled : text ≠ "") (unclosed : Unclosed text.toList) :
    Canonical [.static text] where
  filled other member := by
    obtain rfl := Part.static.inj (List.mem_singleton.mp member)
    exact filled
  apart := .singleton _
  closed name member := by cases List.mem_singleton.mp member
  plain other member := by cases member
  unclosed other last := by
    obtain rfl := Part.static.inj (Option.some.inj last)
    exact unclosed

theorem canonical_ofText {text : List Char} (unclosed : Unclosed text) : Canonical (Part.ofText text) := by
  by_cases empty : text = []
  · subst empty
    exact canonical_nil
  · rw [ofText_of_ne_nil empty]
    exact canonical_singleton (ofList_ne_empty empty) (by rwa [String.toList_ofList])

section Cons

variable {name : String} {template : List Part}

theorem Canonical.cons_placeholder (canonical : Canonical template) (closed : '\x7d' ∉ name.toList) :
    Canonical (.placeholder name :: template) where
  filled text member := canonical.filled text (by simpa using member)
  apart := apart_placeholder canonical.apart name
  closed other member := by
    rcases List.mem_cons.mp member with same | later
    · exact Part.placeholder.inj same ▸ closed
    · exact canonical.closed other later
  plain text member := by
    cases template with
    | nil => cases member
    | cons part rest => exact canonical.plain text (by simpa using member)
  unclosed text last := by
    cases template with
    | nil => simp at last
    | cons part rest => exact canonical.unclosed text (by simpa using last)

theorem Canonical.cons_static (canonical : Canonical (.placeholder name :: template)) {text : String}
    (filled : text ≠ "") (plain : '\x7b' ∉ text.toList) :
    Canonical (.static text :: .placeholder name :: template) where
  filled other member := by
    rcases List.mem_cons.mp member with same | later
    · exact Part.static.inj same ▸ filled
    · exact canonical.filled other later
  apart := .cons_cons (fun _ _ => ⟨name, rfl⟩) canonical.apart
  closed other member := canonical.closed other (by simpa using member)
  plain other member := by
    rcases List.mem_cons.mp member with same | later
    · exact Part.static.inj same ▸ plain
    · exact canonical.plain other later
  unclosed other last := canonical.unclosed other (by simpa using last)

theorem Canonical.tail {part : Part} (canonical : Canonical (part :: template)) : Canonical template where
  filled text member := canonical.filled text (List.mem_cons_of_mem _ member)
  apart := canonical.apart.tail
  closed other member := canonical.closed other (List.mem_cons_of_mem _ member)
  plain text member := by
    cases template with
    | nil => cases member
    | cons next rest => exact canonical.plain text (List.mem_cons_of_mem _ member)
  unclosed text last := by
    cases template with
    | nil => cases last
    | cons next rest => exact canonical.unclosed text (by simpa using last)

end Cons

theorem Reads.canonical {text : List Char} {template : List Part} (reads : Reads text template) :
    Canonical template := by
  induction reads with
  | text unclosed => exact canonical_ofText unclosed
  | @placeholder before name rest parts plain closed _ ih =>
    have later : Canonical (.placeholder (String.ofList name) :: parts) :=
      ih.cons_placeholder (by rwa [String.toList_ofList])
    by_cases empty : before = []
    · subst empty
      exact later
    · rw [ofText_of_ne_nil empty]
      exact later.cons_static (ofList_ne_empty empty) (by rwa [String.toList_ofList])

/-! ### What is canonical is read -/

theorem ofText_toList {text : String} (filled : text ≠ "") : Part.ofText text.toList = [.static text] := by
  have chars : text.toList ≠ [] := fun empty => filled (String.toList_inj.mp empty)
  rw [ofText_of_ne_nil chars, String.ofList_toList]

-- By the form of the template: a static part is the last one or stands before a placeholder.
theorem Canonical.reads : ∀ {template : List Part}, Canonical template →
    Reads (template.flatMap Part.written) template
  | [], _ => .text fun before after none => by simp at none
  | [.static text], canonical => by
    have reads := Reads.text (canonical.unclosed text rfl)
    rw [ofText_toList (canonical.filled text List.mem_cons_self)] at reads
    simpa [Part.written] using reads
  | .static text :: .static other :: _, canonical => (canonical.apart.dynamic other rfl).elim
  | .static text :: .placeholder name :: rest, canonical => by
    have plain := canonical.plain text List.mem_cons_self
    have closed := canonical.closed name (List.mem_cons_of_mem _ List.mem_cons_self)
    have reads := Reads.placeholder plain closed canonical.tail.tail.reads
    rw [ofText_toList (canonical.filled text List.mem_cons_self), String.ofList_toList] at reads
    simpa [Part.written] using reads
  | .placeholder name :: rest, canonical => by
    have closed := canonical.closed name List.mem_cons_self
    have plain : '\x7b' ∉ ([] : List Char) := List.not_mem_nil
    have reads := Reads.placeholder plain closed canonical.tail.reads
    rw [String.ofList_toList] at reads
    simpa [Part.written, Part.ofText] using reads

/-- A route is read as a template exactly if the template is canonical and written like the route. -/
theorem parse_eq_iff_canonical {route : String} {template : List Part} :
    parse route = template ↔ Canonical template ∧ written template = route := by
  rw [parse_eq_iff]
  constructor
  · intro reads
    refine ⟨reads.canonical, ?_⟩
    rw [← parse_eq_iff.mpr reads, written, written_parse, String.ofList_toList]
  · rintro ⟨canonical, rfl⟩
    rw [written, String.toList_ofList]
    exact canonical.reads

/-- An opening brace inside braces belongs to the name, so that it stands in a part that is not static. -/
theorem parse_nestedBrace : parse "/pets/\x7bid\x7bx\x7d" = [.static "/pets/", .placeholder "id\x7bx"] ∧
    '\x7b' ∈ "id\x7bx".toList := by
  decide

end TypedClient.Route
