import TypedClient.Identifier

/-!
Which characters identifiers are made of. A name over ASCII letters, digits, `_`, `-` and `.` becomes an
identifier over letters, digits and `_`, and a name with the same words is over the same characters.
-/
namespace TypedClient.Identifier

def isWordChar (c : Char) : Bool :=
  c.isAlphanum || c == '_'

def isNameChar (c : Char) : Bool :=
  isWordChar c || c == '-' || c == '.'

/-- An identifier with nothing in it that ends an interpolation or a literal. -/
def Worded (identifier : String) : Prop :=
  ∀ c ∈ identifier.toList, isWordChar c = true

theorem Worded.brace {identifier : String} (worded : Worded identifier) :
    '\x7d' ∉ identifier.toList :=
  fun member => absurd (worded _ member) (by decide)

theorem Worded.backtick {identifier : String} (worded : Worded identifier) :
    '\x60' ∉ identifier.toList :=
  fun member => absurd (worded _ member) (by decide)

/-! ### Words -/

theorem mem_splitOnP {p : Char → Bool} {text word : List Char} {c : Char}
    (part : word ∈ text.splitOnP p) (member : c ∈ word) : c ∈ text ∧ p c = false := by
  induction text generalizing word with
  | nil =>
    rw [List.splitOnP_nil, List.mem_singleton] at part
    rw [part] at member
    cases member
  | cons first rest ih =>
    rw [List.splitOnP_cons_eq_if_modifyHead] at part
    have later (word : List Char) (part : word ∈ rest.splitOnP p) (member : c ∈ word) :
        c ∈ first :: rest ∧ p c = false :=
      (ih part member).imp_left (List.mem_cons_of_mem first)
    split at part
    · rcases List.mem_cons.mp part with rfl | part
      · cases member
      · exact later word part member
    · rename_i kept
      cases shape : rest.splitOnP p with
      | nil => simp [shape] at part
      | cons head tail =>
        rw [shape] at part later
        rcases List.mem_cons.mp part with rfl | part
        · rcases List.mem_cons.mp member with rfl | member
          · exact ⟨List.mem_cons_self, Bool.eq_false_iff.mpr kept⟩
          · exact later head List.mem_cons_self member
        · exact later word (List.mem_cons_of_mem _ part) member

theorem isWordChar_of_words {name word : List Char} (named : ∀ c ∈ name, isNameChar c = true)
    (part : word ∈ words name) : ∀ c ∈ word, isWordChar c = true := by
  intro c member
  obtain ⟨present, kept⟩ := mem_splitOnP part member
  have letter := named c present
  simp only [isSeparator, Bool.or_eq_false_iff] at kept
  simpa [isNameChar, kept] using letter

theorem isWordChar_cases {c : Char} (letter : isWordChar c = true) :
    c.isUpper = true ∨ c.isLower = true ∨ c.isDigit = true ∨ c = '_' := by
  have cases : (c.isUpper || c.isLower || c.isDigit || c == '_') = true := letter
  simpa only [Bool.or_eq_true, beq_iff_eq, or_assoc] using cases

theorem toNat_lt_of_isWordChar {c : Char} (letter : isWordChar c = true) : c.toNat < 128 := by
  have below (last : Char) (ascii : last.toNat < 128) (bound : c.val ≤ last.val) : c.toNat < 128 :=
    Nat.lt_of_le_of_lt (UInt32.le_iff_toNat_le.mp bound) ascii
  rcases isWordChar_cases letter with upper | lower | digit | rfl
  · exact below 'Z' (by decide) (of_decide_eq_true upper).2
  · exact below 'z' (by decide) (of_decide_eq_true (Bool.and_eq_true_iff.mp lower).2)
  · exact below '9' (by decide) (of_decide_eq_true (Bool.and_eq_true_iff.mp digit).2)
  · decide

/-- What holds of the first 128 characters holds of every character among them. -/
theorem of_ascii {P : Char → Prop} (each : ∀ code < 128, P (Char.ofNat code)) {c : Char}
    (ascii : c.toNat < 128) : P c :=
  Char.ofNat_toNat c ▸ each c.toNat ascii

/-- Upper case stays in a class of ASCII characters if it does so among the first 128. -/
theorem forall_upperForms {inside : Char → Bool} (ascii : ∀ c, inside c = true → c.toNat < 128)
    (raised : ∀ code < 128, inside (Char.ofNat code) = true → inside (Char.ofNat code).toUpper = true)
    {c : Char} (member : inside c = true) : ∀ upper ∈ Text.upperForms c, inside upper = true := by
  intro upper among
  rw [Text.upperForms, if_pos (ascii c member), List.mem_singleton] at among
  have kept := of_ascii (P := fun c => inside c = true → inside c.toUpper = true) raised (ascii c member)
  exact among ▸ kept member

theorem isWordChar_upperForms {c : Char} (letter : isWordChar c = true) :
    ∀ upper ∈ Text.upperForms c, isWordChar upper = true :=
  forall_upperForms (fun _ => toNat_lt_of_isWordChar) (by decide +kernel) letter

section Raised

variable {P : Char → Prop} (raised : ∀ c, P c → ∀ upper ∈ Text.upperForms c, P upper)
include raised

/-- What upper case leaves alone holds of a capitalized word if it holds of the word. -/
theorem forall_capitalize {word : List Char} (each : ∀ c ∈ word, P c) :
    ∀ c ∈ Text.capitalize word, P c := by
  cases word with
  | nil => exact each
  | cons first rest =>
    rw [List.forall_mem_cons] at each
    exact List.forall_mem_append.mpr ⟨raised first each.1, each.2⟩

theorem forall_camelWords {name : List Char} (each : ∀ word ∈ words name, ∀ c ∈ word, P c) :
    ∀ c ∈ camelWords name, P c := by
  unfold camelWords
  split
  · exact fun _ none => nomatch none
  · rename_i first later shape
    rw [shape, List.forall_mem_cons] at each
    refine List.forall_mem_append.mpr ⟨each.1, fun c member => ?_⟩
    obtain ⟨word, part, member⟩ := List.mem_flatMap.mp member
    exact forall_capitalize raised (each.2 word part) c member

end Raised

theorem isWordChar_capitalize {word : List Char} (letters : ∀ c ∈ word, isWordChar c = true) :
    ∀ c ∈ Text.capitalize word, isWordChar c = true :=
  forall_capitalize (fun _ => isWordChar_upperForms) letters

theorem isWordChar_camelWords {name : List Char} (named : ∀ c ∈ name, isNameChar c = true) :
    ∀ c ∈ camelWords name, isWordChar c = true :=
  forall_camelWords (fun _ => isWordChar_upperForms) fun _ part => isWordChar_of_words named part

theorem isWordChar_guardDigit {word : List Char} (letters : ∀ c ∈ word, isWordChar c = true) :
    ∀ c ∈ guardDigit word, isWordChar c = true := by
  unfold guardDigit
  split
  · split
    · exact List.forall_mem_cons.mpr ⟨by decide, letters⟩
    · exact letters
  · exact fun _ none => nomatch none

theorem worded_ofName {name : String} (named : ∀ c ∈ name.toList, isNameChar c = true) :
    Worded (ofName name) := by
  have letters := isWordChar_camelWords named
  unfold Worded ofName
  split
  · exact List.all_eq_true.mp (by decide)
  · have guarded : ∀ c ∈ (String.ofList (guardDigit (camelWords name.toList))).toList,
        isWordChar c = true := by
      rw [String.toList_ofList]
      exact isWordChar_guardDigit letters
    dsimp only
    split
    · rw [String.toList_append]
      exact List.forall_mem_append.mpr ⟨List.all_eq_true.mp (by decide), guarded⟩
    · exact guarded

/-! ### Names with the same words -/

theorem isWordChar_of_upper {c : Char} (upper : c.isUpper = true) : isWordChar c = true := by
  change (c.isUpper || c.isLower || c.isDigit || c == '_') = true
  rw [upper, Bool.true_or, Bool.true_or, Bool.true_or]

theorem isNameChar_toLower {c : Char} (upper : c.isUpper = true) : isNameChar c.toLower = true := by
  have lowered := of_ascii (P := fun c => c.isUpper = true → isNameChar c.toLower = true)
    (by decide +kernel) (toNat_lt_of_isWordChar (isWordChar_of_upper upper))
  exact lowered upper

theorem isNameChar_snakeRest {c : Char} (named : isNameChar c = true) :
    ∀ word ∈ snakeRest c, isNameChar word = true := by
  unfold snakeRest
  split
  · rename_i upper
    exact List.forall_mem_cons.mpr ⟨by decide, List.forall_mem_singleton.mpr (isNameChar_toLower upper)⟩
  · split
    · exact List.forall_mem_singleton.mpr (by decide)
    · exact List.forall_mem_singleton.mpr named

theorem isNameChar_snakeChars {name : List Char} (named : ∀ c ∈ name, isNameChar c = true) :
    ∀ c ∈ snakeChars name, isNameChar c = true := by
  cases name with
  | nil => exact named
  | cons first rest =>
    rw [List.forall_mem_cons] at named
    refine List.forall_mem_append.mpr ⟨?_, fun c member => ?_⟩
    · split
      · rename_i upper
        exact List.forall_mem_singleton.mpr (isNameChar_toLower upper)
      · split
        · exact List.forall_mem_singleton.mpr (by decide)
        · exact List.forall_mem_singleton.mpr named.1
    · obtain ⟨held, present, member⟩ := List.mem_flatMap.mp member
      exact isNameChar_snakeRest (named.2 held present) c member

/-- A character of a name is one that names may have, or it is kept among the words. -/
theorem mem_snakeChars_of_mem {name : List Char} {c : Char} (member : c ∈ name) :
    isNameChar c = true ∨ c ∈ snakeChars name := by
  by_cases upper : c.isUpper = true
  · exact .inl (by rw [isNameChar, isWordChar_of_upper upper, Bool.true_or, Bool.true_or])
  by_cases hyphen : c = '-'
  · exact .inl (hyphen ▸ by decide)
  cases name with
  | nil => cases member
  | cons first rest =>
    rcases List.mem_cons.mp member with rfl | later
    · exact .inr (List.mem_append_left _ (by simp [upper, hyphen]))
    · exact .inr (List.mem_append_right _
        (List.mem_flatMap.mpr ⟨c, later, by simp [snakeRest, upper, hyphen]⟩))

theorem isNameChar_of_snake {name other : String} (same : snake name = snake other)
    (named : ∀ c ∈ other.toList, isNameChar c = true) : ∀ c ∈ name.toList, isNameChar c = true := by
  intro c member
  have chars : snakeChars name.toList = snakeChars other.toList := by
    simpa [snake] using congrArg String.toList same
  rcases mem_snakeChars_of_mem member with letter | word
  · exact letter
  · exact isNameChar_snakeChars named c (chars ▸ word)

end TypedClient.Identifier
