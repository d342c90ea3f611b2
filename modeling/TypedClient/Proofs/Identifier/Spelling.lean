import TypedClient.Identifier

/-!
When two names have one identifier. An identifier is the joined words of its name, with an underscore
in front where they cannot stand by themselves. Names share it if their words join to the same text, or
if one name spells the underscore that the other needs.
-/
namespace TypedClient.Identifier

def joined (name : String) : List Char :=
  camelWords name.toList

/-- Joined words that are no identifier: none at all, a leading digit, a reserved word. -/
def needsGuard : List Char → Bool
  | [] => true
  | c :: rest => c.isDigit || isReserved (String.ofList (c :: rest))

/-- What stands behind the underscore. -/
def guarded : List Char → List Char
  | [] => "empty".toList
  | word => word

def Spells (name other : String) : Prop :=
  needsGuard (joined other) = true ∧ joined name = '_' :: guarded (joined other)

/-- Names that cannot be told apart by their identifiers. -/
def Alike (name other : String) : Prop :=
  joined name = joined other ∨ Spells name other ∨ Spells other name

instance (name other : String) : Decidable (Spells name other) :=
  inferInstanceAs (Decidable (_ ∧ _))

instance (name other : String) : Decidable (Alike name other) :=
  inferInstanceAs (Decidable (_ ∨ _ ∨ _))

/-! ### The form of an identifier -/

theorem head?_of_isReserved {name : String} (reserved : isReserved name = true) :
    name.toList.head? ≠ some '_' := by
  have plain : ∀ word ∈ reservedWords, word.toList.head? ≠ some '_' := by decide +kernel
  exact plain name (List.contains_iff_mem.mp reserved)

theorem needsGuard_underscore (word : List Char) : needsGuard ('_' :: word) = false := by
  have unreserved : isReserved (String.ofList ('_' :: word)) = false := by
    apply Bool.eq_false_iff.mpr
    intro reserved
    exact head?_of_isReserved reserved (by rw [String.toList_ofList]; rfl)
  rw [needsGuard, unreserved]
  decide

theorem ne_underscore_of_needsGuard {word : List Char} (guards : needsGuard word = true)
    (rest : List Char) : word ≠ '_' :: rest := by
  rintro rfl
  rw [needsGuard_underscore] at guards
  cases guards

theorem toList_ofName (name : String) :
    (ofName name).toList =
      if needsGuard (joined name) then '_' :: guarded (joined name) else joined name := by
  unfold ofName
  cases word : camelWords name.toList with
  | nil =>
    simp only [joined, word]
    rfl
  | cons c rest =>
    have shape : joined name = c :: rest := word
    dsimp only
    by_cases digit : c.isDigit = true
    · have fit : isReserved (String.ofList ('_' :: c :: rest)) = false := by
        have unguarded := needsGuard_underscore (c :: rest)
        rw [needsGuard, Bool.or_eq_false_iff] at unguarded
        exact unguarded.2
      rw [shape, needsGuard, digit, Bool.true_or, if_pos rfl, guardDigit, if_pos digit, fit,
        if_neg Bool.false_ne_true, String.toList_ofList]
      rfl
    · rw [shape, needsGuard, Bool.eq_false_iff.mpr digit, Bool.false_or, guardDigit, if_neg digit]
      split
      · rw [String.toList_append, String.toList_ofList, String.toList_ofList]
        rfl
      · rw [String.toList_ofList]

theorem guarded_injective {word other : List Char} (first : needsGuard word = true)
    (second : needsGuard other = true) (same : guarded word = guarded other) : word = other := by
  have fit : needsGuard "empty".toList = false := by decide +kernel
  cases word with
  | nil =>
    cases other with
    | nil => rfl
    | cons c rest =>
      have spelled : "empty".toList = c :: rest := same
      rw [← spelled, fit] at second
      cases second
  | cons c rest =>
    cases other with
    | nil =>
      have spelled : c :: rest = "empty".toList := same
      rw [spelled, fit] at first
      cases first
    | cons => exact same

/-- Two names have one identifier exactly if they are alike. -/
theorem ofName_eq_iff {name other : String} : ofName name = ofName other ↔ Alike name other := by
  rw [← String.toList_inj, toList_ofName, toList_ofName]
  have different (unequal : needsGuard (joined name) ≠ needsGuard (joined other)) :
      joined name ≠ joined other := fun same => unequal (congrArg needsGuard same)
  unfold Alike Spells
  cases first : needsGuard (joined name) <;> cases second : needsGuard (joined other) <;>
    rw [first, second] at different
  case false.false => simp
  case false.true => simp [different Bool.false_ne_true]
  case true.false => simp [different Bool.false_ne_true.symm, eq_comm]
  case true.true =>
    constructor
    · intro same
      exact .inl (guarded_injective first second (List.cons.inj same).2)
    · rintro (same | ⟨-, same⟩ | ⟨-, same⟩)
      · rw [same]
      · exact absurd same (ne_underscore_of_needsGuard first _)
      · exact absurd same (ne_underscore_of_needsGuard second _)

/-- An identifier that needs no underscore and has none comes from the names that join to it. -/
theorem ofName_eq_iff_joined {name word : String} (fit : needsGuard word.toList = false)
    (plain : word.toList.head? ≠ some '_') : ofName name = word ↔ joined name = word.toList := by
  rw [← String.toList_inj, toList_ofName]
  split
  · rename_i guards
    constructor
    · intro same
      exact absurd (by rw [← same]; rfl) plain
    · intro same
      rw [same, fit] at guards
      cases guards
  · exact Iff.rfl

example : Alike "class" "_class" := by decide +kernel

example : Alike "room-id" "roomId" ∧ ¬Alike "room_id" "roomId" := by decide +kernel

end TypedClient.Identifier
