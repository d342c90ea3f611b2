import TypedClient.Proofs.Identifier.Alphabet
import TypedClient.Proofs.Route.Segments

/-!
Names derived from component keys, from routes and from other names. Over ASCII letters, digits, `_`, `-`
and `.` all of them are valid identifiers, whatever the static text of a route is, and identifiers of
values also over `$` and spaces.
-/
namespace TypedClient

namespace Identifier

/-! ### Identifiers of values -/

theorem isKeyPart_of_wordChar {c : Char} (letter : isWordChar c = true) : Quoting.isKeyPart c = true := by
  have letter : (c.isAlphanum || c == '_') = true := letter
  rw [Quoting.isKeyPart, letter, Bool.true_or]

theorem toNat_lt_of_isKeyPart {c : Char} (part : Quoting.isKeyPart c = true) : c.toNat < 128 := by
  rw [Quoting.isKeyPart, Bool.or_eq_true, beq_iff_eq] at part
  rcases part with letter | rfl
  · exact toNat_lt_of_isWordChar letter
  · decide

theorem isKeyPart_upperForms (c : Char) (part : Quoting.isKeyPart c = true) :
    ∀ upper ∈ Text.upperForms c, Quoting.isKeyPart upper = true :=
  forall_upperForms (fun _ => toNat_lt_of_isKeyPart) (by decide +kernel) part

/-- Separators are cut out, so that of the wider alphabet only the dollar sign is left. -/
theorem isKeyPart_of_words {name word : List Char}
    (spelled : ∀ c ∈ name, isNameChar c = true ∨ c = '$' ∨ c = ' ') (part : word ∈ words name) :
    ∀ c ∈ word, Quoting.isKeyPart c = true := by
  intro c member
  obtain ⟨present, kept⟩ := mem_splitOnP part member
  rcases spelled c present with named | rfl | rfl
  · simp only [isSeparator, Bool.or_eq_false_iff] at kept
    have letter : isWordChar c = true := by simpa [isNameChar, kept] using named
    exact isKeyPart_of_wordChar letter
  · decide
  · exact absurd kept (by decide)

namespace Alphabet

variable {alphabet : Alphabet}

theorem joins_of_keyParts {word : List Char} (parts : ∀ c ∈ word, Quoting.isKeyPart c = true) :
    alphabet.Joins word := by
  constructor
  · intro c member
    rw [alphabet.continues_ascii c (toNat_lt_of_isKeyPart (parts c member))]
    exact parts c member
  · intro c head
    have part := parts c (List.mem_of_mem_head? head)
    rw [alphabet.starts_ascii c (toNat_lt_of_isKeyPart part)]
    simp only [Quoting.isKeyPart, Quoting.isKeyStart, Char.isAlphanum, Bool.or_eq_true] at part ⊢
    rcases part with ((letter | digit) | line) | dollar
    · exact .inr (.inl (.inl letter))
    · exact .inl digit
    · exact .inr (.inl (.inr line))
    · exact .inr (.inr dollar)

theorem valid_ofName {name : String}
    (spelled : ∀ c ∈ name.toList, isNameChar c = true ∨ c = '$' ∨ c = ' ') :
    alphabet.Valid (ofName name) := by
  have parts : ∀ c ∈ joined name, Quoting.isKeyPart c = true :=
    forall_camelWords isKeyPart_upperForms fun _ part => isKeyPart_of_words spelled part
  exact valid_ofName_iff.mpr (joins_of_keyParts parts)

end Alphabet

theorem isWordChar_uncapitalize {word : List Char} (letters : ∀ c ∈ word, isWordChar c = true) :
    ∀ c ∈ Text.uncapitalize word, isWordChar c = true := by
  cases word with
  | nil => exact letters
  | cons first rest =>
    rw [List.forall_mem_cons] at letters
    have ascii := toNat_lt_of_isWordChar letters.1
    have lowered := of_ascii (P := fun c => isWordChar c = true → isWordChar c.toLower = true)
      (by decide +kernel) ascii
    rw [Text.uncapitalize, Text.lowerForms, if_pos ascii, List.singleton_append, List.forall_mem_cons]
    exact ⟨lowered letters.1, letters.2⟩

end Identifier

/-! ### Default names -/

namespace Route
open Endpoint Identifier

/-- The names in braces are over the alphabet of component keys, in the route as a whole or in each of its
segments by itself. -/
def PlainlyNamed (route : String) : Prop :=
  (∀ name ∈ placeholders (parse route), ∀ c ∈ name.toList, isNameChar c = true) ∨
    ∀ name ∈ placeholders ((segments route).flatMap parse), ∀ c ∈ name.toList, isNameChar c = true

theorem PlainlyNamed.segments {route : String} (plain : PlainlyNamed route) :
    ∀ name ∈ placeholders ((segments route).flatMap parse), ∀ c ∈ name.toList, isNameChar c = true := by
  rcases plain with whole | each
  · have within : ∀ name ∈ placeholders (parse route), '/' ∉ name.toList := by
      intro name member slash
      exact absurd (whole name member '/' slash) (by decide)
    exact fun name member => whole name (mem_placeholders_of_segments within member)
  · exact each

theorem worded_title {part : Part}
    (named : ∀ name, part = .placeholder name → ∀ c ∈ name.toList, isNameChar c = true) :
    Worded part.title := by
  cases part with
  | static content =>
    intro c member
    rw [Part.title, String.toList_ofList] at member
    obtain ⟨word, cut, member⟩ := List.mem_flatMap.mp member
    refine isWordChar_capitalize (fun c inside => ?_) c member
    have kept : c.isAlphanum = true := by simpa using (mem_splitOnP cut inside).2
    rw [isWordChar, kept, Bool.true_or]
  | placeholder name =>
    rw [Worded, Part.title, String.toList_append]
    exact List.forall_mem_append.mpr
      ⟨List.all_eq_true.mp (by decide), worded_ofTypeKey (named name rfl)⟩

theorem worded_defaultName {route : String} (plain : PlainlyNamed route) (verb : Verb) :
    Worded (defaultName verb route) := by
  have verbs : Worded verb.title := by
    cases verb <;> exact List.all_eq_true.mp (by decide)
  have titles : Worded (String.join (((segments route).flatMap parse).map Part.title)) := by
    intro c member
    rw [String.toList_join] at member
    obtain ⟨title, listed, member⟩ := List.mem_flatMap.mp member
    obtain ⟨part, inside, rfl⟩ := List.mem_map.mp listed
    refine worded_title (fun name same => ?_) c member
    exact plain.segments name (List.mem_filterMap.mpr ⟨part, inside, by rw [same]⟩)
  unfold defaultName
  rw [Worded, String.toList_append]
  refine List.forall_mem_append.mpr ⟨verbs, ?_⟩
  split
  · exact List.all_eq_true.mp (by decide)
  · exact titles

theorem head?_defaultName (verb : Verb) (route : String) :
    ∃ c rest, (defaultName verb route).toList = c :: rest ∧ c.isDigit = false ∧ c.isLower = false := by
  unfold defaultName
  rw [String.toList_append]
  cases verb <;> exact ⟨_, _, rfl, by decide, by decide⟩

end Route

namespace Identifier

/-- Names derived over the usual alphabet are valid identifiers: the type name of every key, the default
name of every operation with plainly named placeholders and its function name, and the identifier of every
name, also with dollar signs and spaces. -/
theorem derived_valid (alphabet : Alphabet) :
    (∀ (root : Root) (key : String), (∀ c ∈ key.toList, isNameChar c = true) →
      alphabet.Valid (root.typeName key)) ∧
    (∀ (verb : Verb) (route : String), Route.PlainlyNamed route →
      alphabet.Valid (Route.defaultName verb route) ∧
        alphabet.Valid (ofName (uncapitalized (Route.defaultName verb route)))) ∧
    ∀ name : String, (∀ c ∈ name.toList, isNameChar c = true ∨ c = '$' ∨ c = ' ') →
      alphabet.Valid (ofName name) := by
  refine ⟨fun root key named => Alphabet.valid_typeName named root, ?_, fun _ => Alphabet.valid_ofName⟩
  intro verb route plain
  have worded := Route.worded_defaultName plain verb
  obtain ⟨c, rest, shape, other, upper⟩ := Route.head?_defaultName verb route
  refine ⟨Alphabet.valid_of_capital worded shape other upper, Alphabet.valid_ofName ?_⟩
  intro c member
  rw [uncapitalized, String.toList_ofList] at member
  have letter := isWordChar_uncapitalize worded c member
  exact .inl (by rw [isNameChar, letter, Bool.true_or, Bool.true_or])

/-- A key of separators, a route with text beyond ASCII, a brace that is never closed and an empty
placeholder, and a reserved word behind a separator. -/
theorem derived_valid_corners :
    ((∀ c ∈ "-.".toList, isNameChar c = true) ∧ Alphabet.ascii.Valid (Root.schema.typeName "-.")) ∧
    (Route.PlainlyNamed "/gärten/\x7b2nd\x7d\x7b\x7d/\x7bid" ∧
      Alphabet.ascii.Valid (Route.defaultName .delete "/gärten/\x7b2nd\x7d\x7b\x7d/\x7bid") ∧
      Alphabet.ascii.Valid
        (ofName (uncapitalized (Route.defaultName .delete "/gärten/\x7b2nd\x7d\x7b\x7d/\x7bid")))) ∧
    (∀ c ∈ "class $".toList, isNameChar c = true ∨ c = '$' ∨ c = ' ') ∧
      Alphabet.ascii.Valid (ofName "class $") := by
  obtain ⟨keys, routes, names⟩ := derived_valid .ascii
  have separators : ∀ c ∈ "-.".toList, isNameChar c = true := List.all_eq_true.mp (by decide)
  have plain : Route.PlainlyNamed "/gärten/\x7b2nd\x7d\x7b\x7d/\x7bid" := by
    refine .inl ?_
    simp only [← List.all_eq_true]
    decide +kernel
  have spelled : ∀ c ∈ "class $".toList, isNameChar c = true ∨ c = '$' ∨ c = ' ' := by
    intro c member
    have all : "class $".toList.all (fun c => isNameChar c || (c == '$' || c == ' ')) = true := by
      decide
    simpa using List.all_eq_true.mp all c member
  exact ⟨⟨separators, keys .schema "-." separators⟩, ⟨plain, routes .delete _ plain⟩, spelled,
    names "class $" spelled⟩

example : Route.defaultName .delete "/gärten/\x7b2nd\x7d\x7b\x7d/\x7bid" = "DeleteGRtenBy_2ndBy_EmptyId" := by
  decide +kernel

end Identifier
end TypedClient
