import TypedClient.Proofs.Identifier.Letters
import TypedClient.Proofs.Identifier.Spelling
import TypedClient.Quoting
import TypedClient.Reference

/-!
Valid identifiers. Which characters beyond ASCII the generated language admits is left open. The
identifier of a name is valid exactly if nothing else stands in its joined words, and the type name of a
key over ASCII letters, digits, `_`, `-` and `.` always is.
-/
namespace TypedClient.Identifier

/-- What an identifier may start with and what it may go on with. -/
structure Alphabet where
  starts : Char → Bool
  continues : Char → Bool
  starts_ascii : ∀ c, c.toNat < 128 → starts c = Quoting.isKeyStart c
  continues_ascii : ∀ c, c.toNat < 128 → continues c = Quoting.isKeyPart c
  continues_of_starts : ∀ c, starts c = true → continues c = true

namespace Alphabet

/-- Identifiers of ASCII characters only. -/
def ascii : Alphabet where
  starts := Quoting.isKeyStart
  continues := Quoting.isKeyPart
  starts_ascii _ _ := rfl
  continues_ascii _ _ := rfl
  continues_of_starts c starts := by
    simp only [Quoting.isKeyStart, Quoting.isKeyPart, Char.isAlphanum, Bool.or_eq_true] at starts ⊢
    rcases starts with (alpha | line) | dollar
    · exact .inl (.inl (.inl alpha))
    · exact .inl (.inr line)
    · exact .inr dollar

variable (alphabet : Alphabet)

def Continues (word : List Char) : Prop :=
  ∀ c ∈ word, alphabet.continues c = true

/-- The word can stand at the start of an identifier. -/
def Opens (word : List Char) : Prop :=
  alphabet.Continues word ∧ ∀ c ∈ word.head?, alphabet.starts c = true

/-- The word is made of what identifiers are made of, perhaps with a digit in front. -/
def Joins (word : List Char) : Prop :=
  alphabet.Continues word ∧ ∀ c ∈ word.head?, c.isDigit = true ∨ alphabet.starts c = true

/-- An identifier as it is written without escapes, and no reserved word. -/
def Valid (identifier : String) : Prop :=
  identifier.toList ≠ [] ∧ alphabet.Opens identifier.toList ∧ isReserved identifier = false

-- The instances look at the characters of the word, where one for all characters would look at each.
instance (word : List Char) : Decidable (alphabet.Continues word) :=
  List.decidableBAll _ word

instance (word : List Char) : Decidable (alphabet.Opens word) :=
  @instDecidableAnd _ _ inferInstance (Option.decidableForallMem word.head?)

instance (word : List Char) : Decidable (alphabet.Joins word) :=
  @instDecidableAnd _ _ inferInstance (Option.decidableForallMem word.head?)

instance (identifier : String) : Decidable (alphabet.Valid identifier) :=
  inferInstanceAs (Decidable (_ ∧ _ ∧ _))

variable {alphabet}

theorem continues_of_wordChar {c : Char} (letter : isWordChar c = true) : alphabet.continues c = true := by
  rw [alphabet.continues_ascii c (toNat_lt_of_isWordChar letter), Quoting.isKeyPart, ← isWordChar, letter,
    Bool.true_or]

theorem starts_of_wordChar {c : Char} (letter : isWordChar c = true) (other : c.isDigit = false) :
    alphabet.starts c = true := by
  rw [alphabet.starts_ascii c (toNat_lt_of_isWordChar letter)]
  have shown : c.isAlpha = true ∨ c = '_' := by simpa [isWordChar, Char.isAlphanum, other] using letter
  simpa [Quoting.isKeyStart, or_assoc] using shown.imp_right Or.inl

theorem starts_underscore : alphabet.starts '_' = true :=
  starts_of_wordChar (by decide) (by decide)

theorem opens_cons {c : Char} {rest : List Char} :
    alphabet.Opens (c :: rest) ↔ alphabet.starts c = true ∧ alphabet.Continues rest := by
  simp only [Opens, Continues, List.forall_mem_cons, List.head?_cons, Option.mem_some_iff, forall_eq']
  constructor
  · rintro ⟨⟨-, continues⟩, starts⟩
    exact ⟨starts, continues⟩
  · rintro ⟨starts, continues⟩
    exact ⟨⟨alphabet.continues_of_starts c starts, continues⟩, starts⟩

theorem opens_of_wordChars {word : List Char} (letters : ∀ c ∈ word, isWordChar c = true)
    (first : ∀ c ∈ word.head?, c.isDigit = false) : alphabet.Opens word :=
  ⟨fun c member => continues_of_wordChar (letters c member), fun c head =>
    starts_of_wordChar (letters c (List.mem_of_mem_head? head)) (first c head)⟩

theorem opens_append {word more : List Char} (letters : ∀ c ∈ more, isWordChar c = true)
    (first : ∀ c ∈ more.head?, c.isDigit = false) :
    alphabet.Opens (word ++ more) ↔ alphabet.Opens word := by
  cases word with
  | nil => exact iff_of_true (opens_of_wordChars letters first) (opens_of_wordChars (by simp) (by simp))
  | cons c rest =>
    have continues : alphabet.Continues more := fun c member => continues_of_wordChar (letters c member)
    rw [List.cons_append, opens_cons, opens_cons, Continues, List.forall_mem_append]
    exact and_congr_right' (and_iff_left continues)

end Alphabet

/-! ### Reserved words -/

theorem not_reserved_of_mem {name : String} {c : Char} (member : c ∈ name.toList)
    (other : c.isLower = false) : isReserved name = false := by
  have lower : ∀ word ∈ reservedWords, ∀ c ∈ word.toList, c.isLower = true := by
    simp only [← List.all_eq_true]
    decide +kernel
  apply Bool.eq_false_iff.mpr
  intro reserved
  rw [lower name (List.contains_iff_mem.mp reserved) c member] at other
  cases other

theorem isReserved_ofName (name : String) : isReserved (ofName name) = false := by
  have chars := toList_ofName name
  split at chars
  · exact not_reserved_of_mem (by rw [chars]; exact List.mem_cons_self) (by decide)
  · rename_i fit
    cases word : joined name with
    | nil =>
      rw [word] at fit
      exact absurd rfl fit
    | cons c rest =>
      rw [word] at chars fit
      rw [← String.ofList_toList (s := ofName name), chars]
      rw [needsGuard, Bool.or_eq_true, not_or] at fit
      exact Bool.eq_false_iff.mpr fit.2

/-- A name that starts with a capital letter or an underscore is a valid identifier. -/
theorem Alphabet.valid_of_capital {alphabet : Alphabet} {name : String} {c : Char} {rest : List Char}
    (worded : Worded name) (shape : name.toList = c :: rest) (other : c.isDigit = false)
    (upper : c.isLower = false) : alphabet.Valid name := by
  have member : c ∈ name.toList := shape ▸ List.mem_cons_self
  have first : ∀ c ∈ name.toList.head?, c.isDigit = false := by
    rw [shape]
    exact fun _ head => Option.some.inj head ▸ other
  exact ⟨List.ne_nil_of_mem member, opens_of_wordChars worded first, not_reserved_of_mem member upper⟩

/-! ### Identifiers of values -/

namespace Alphabet

variable {alphabet : Alphabet}

theorem continues_guarded {word : List Char} :
    alphabet.Continues (guarded word) ↔ alphabet.Continues word := by
  cases word with
  | nil =>
    have letters : ∀ c ∈ "empty".toList, isWordChar c = true := List.all_eq_true.mp (by decide)
    exact iff_of_true (fun c member => continues_of_wordChar (letters c member)) (by simp [Continues])
  | cons => exact Iff.rfl

/-- Words that are guarded for another reason than a digit could start an identifier. -/
theorem starts_of_needsGuard {word : List Char} (guards : needsGuard word = true) :
    ∀ c ∈ word.head?, c.isDigit = true ∨ alphabet.starts c = true := by
  cases word with
  | nil => simp
  | cons c rest =>
    simp only [List.head?_cons, Option.mem_some_iff, forall_eq']
    rw [needsGuard, Bool.or_eq_true] at guards
    refine guards.imp_right fun reserved => ?_
    have plain : reservedWords.all (fun word =>
        word.toList.all fun c => isWordChar c && !c.isDigit) = true := by
      decide +kernel
    have letters := List.all_eq_true.mp (List.all_eq_true.mp plain _ (List.contains_iff_mem.mp reserved)) c
      (by rw [String.toList_ofList]; exact List.mem_cons_self)
    rw [Bool.and_eq_true, Bool.not_eq_true'] at letters
    exact starts_of_wordChar letters.1 letters.2

/-- The identifier of a name is valid exactly if its joined words are made of what identifiers are. -/
theorem valid_ofName_iff {name : String} : alphabet.Valid (ofName name) ↔ alphabet.Joins (joined name) := by
  rw [Valid, toList_ofName, isReserved_ofName, and_iff_left rfl]
  split
  · rename_i guards
    rw [opens_cons, continues_guarded, and_iff_right (List.cons_ne_nil _ _),
      and_iff_right starts_underscore]
    exact (and_iff_left (starts_of_needsGuard guards)).symm
  · rename_i fit
    cases word : joined name with
    | nil =>
      rw [word] at fit
      exact absurd rfl fit
    | cons c rest =>
      have other : c.isDigit = false := by
        rw [word, needsGuard, Bool.or_eq_true, not_or] at fit
        exact Bool.eq_false_iff.mpr fit.1
      rw [and_iff_right (List.cons_ne_nil _ _), Opens, Joins]
      simp [other]

example : Alphabet.ascii.Joins (joined "2-pets") ∧ ¬Alphabet.ascii.Joins (joined "pets/2") := by
  decide +kernel

end Alphabet

/-! ### Identifiers of types -/

section TypeKeys

theorem not_lower_toUpper {c : Char} (letter : isWordChar c = true) : c.toUpper.isLower = false :=
  of_ascii (P := fun c => c.toUpper.isLower = false) (by decide +kernel) (toNat_lt_of_isWordChar letter)

theorem head?_capitalized {words : List (List Char)}
    (letters : ∀ word ∈ words, ∀ c ∈ word, isWordChar c = true) :
    ∀ c ∈ (words.flatMap Text.capitalize).head?, c.isLower = false := by
  induction words with
  | nil => simp
  | cons word words ih =>
    rw [List.forall_mem_cons] at letters
    cases word with
    | nil => exact ih letters.2
    | cons first rest =>
      have letter := letters.1 first List.mem_cons_self
      rw [List.flatMap_cons, Text.capitalize, Text.upperForms, if_pos (toNat_lt_of_isWordChar letter)]
      exact fun _ head => Option.some.inj head ▸ not_lower_toUpper letter

variable {key : String} (named : ∀ c ∈ key.toList, isNameChar c = true)
include named

theorem worded_ofTypeKey : Worded (ofTypeKey key) := by
  have each : ∀ c ∈ (words key.toList).flatMap Text.capitalize, isWordChar c = true := by
    intro c member
    obtain ⟨word, part, member⟩ := List.mem_flatMap.mp member
    exact isWordChar_capitalize (isWordChar_of_words named part) c member
  unfold Worded ofTypeKey
  split
  · exact List.all_eq_true.mp (by decide)
  · rw [String.toList_ofList]
    exact isWordChar_guardDigit each

/-- The first character of a type name is a capital letter or an underscore. -/
theorem head?_ofTypeKey : ∃ c rest, (ofTypeKey key).toList = c :: rest ∧ c.isDigit = false ∧
    c.isLower = false := by
  have first := head?_capitalized fun _ part => isWordChar_of_words named part
  unfold ofTypeKey
  split
  · exact ⟨'_', "Empty".toList, rfl, by decide, by decide⟩
  · rename_i joined filled
    rw [String.toList_ofList]
    cases shape : (words key.toList).flatMap Text.capitalize with
    | nil => exact absurd shape filled
    | cons c rest =>
      rw [shape] at first
      rw [guardDigit]
      split
      · exact ⟨'_', c :: rest, rfl, by decide, by decide⟩
      · rename_i other
        exact ⟨c, rest, rfl, Bool.eq_false_iff.mpr other, first c rfl⟩

theorem Alphabet.valid_typeName {alphabet : Alphabet} (root : Root) :
    alphabet.Valid (root.typeName key) := by
  obtain ⟨c, rest, shape, other, upper⟩ := head?_ofTypeKey named
  have suffix : ∀ c ∈ root.suffix.toList, isWordChar c = true := by
    cases root <;> exact List.all_eq_true.mp (by decide)
  have chars : (root.typeName key).toList = c :: (rest ++ root.suffix.toList) := by
    rw [Root.typeName, String.toList_append, shape, List.cons_append]
  have letters : Worded (root.typeName key) := by
    rw [Worded, Root.typeName, String.toList_append]
    exact List.forall_mem_append.mpr ⟨worded_ofTypeKey named, suffix⟩
  exact valid_of_capital letters chars other upper

end TypeKeys

end TypedClient.Identifier
