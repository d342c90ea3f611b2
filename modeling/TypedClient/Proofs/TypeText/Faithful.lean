import TypedClient.Proofs.TypeText.Equations
import TypedClient.Proofs.TypeText.Legible
import TypedClient.Proofs.TypeText.Reading

/-!
The text of a legible type is read back as its tree. The induction goes over the parts of the type in
writing, with two facts for each: its text adds its branches where a type may begin, and its text as
an operand adds its tree to the factors before it.
-/
namespace TypedClient
namespace TypeText

def Tree.factors : Tree → List Tree
  | .intersection factors => factors
  | factor => [factor]

/-- The reader takes the factors of the branch for the branch. -/
def Tree.Settled (branch : Tree) : Prop :=
  .ofFactors branch.factors = branch

/-- What the reader holds after these branches. -/
def groupsOf (branches : List Tree) : Groups :=
  (branches.map fun branch => branch.factors.reverse).reverse

theorem groupsOf_append (branches others : List Tree) :
    groupsOf (branches ++ others) = groupsOf others ++ groupsOf branches := by
  simp [groupsOf]

theorem groupsOf_flatMap {α : Type} (branches : α → List Tree) (items : List α) (earlier : Groups) :
    groupsOf (items.flatMap branches) ++ earlier =
      items.foldl (fun earlier item => groupsOf (branches item) ++ earlier) earlier := by
  induction items generalizing earlier with
  | nil => rfl
  | cons item items ih =>
    rw [List.flatMap_cons, groupsOf_append, List.append_assoc, ih, List.foldl_cons]

theorem tree_groupsOf {branches : List Tree} (settled : ∀ branch ∈ branches, branch.Settled) :
    (groupsOf branches).tree = .ofBranches branches := by
  have restored : branches.map (fun branch => Tree.ofFactors branch.factors) = branches := by
    conv_rhs => rw [← List.map_id branches]
    exact List.map_congr_left settled
  rw [Groups.tree, groupsOf, List.map_reverse, List.reverse_reverse, List.map_map]
  simpa [Function.comp_def] using congrArg Tree.ofBranches restored

theorem wordStart_of_keyStart {c : Char} (start : Quoting.isKeyStart c = true) :
    isWordStart c = true := by
  unfold isWordStart
  rw [Bool.or_eq_true]
  exact .inl start

theorem wordPart_of_keyPart {c : Char} (part : Quoting.isKeyPart c = true) : isWordPart c = true := by
  simp only [Quoting.isKeyPart, Char.isAlphanum, Bool.or_eq_true] at part
  simp only [isWordPart, isWordStart, Bool.or_eq_true]
  tauto

theorem identifier_of_plain {name : String} (plain : Quoting.needsQuotes name = false) :
    isIdentifier name = true := by
  cases spelled : name.toList with
  | nil => simp [Quoting.needsQuotes, spelled] at plain
  | cons c rest =>
    obtain ⟨start, parts⟩ : Quoting.isKeyStart c = true ∧ ∀ d ∈ rest, Quoting.isKeyPart d = true := by
      simpa [Quoting.needsQuotes, spelled] using plain
    have word : isIdentifier name = (isWordStart c && rest.all isWordPart) := by
      rw [isIdentifier, spelled]
    rw [word]
    refine (Bool.and_eq_true _ _).mpr ⟨wordStart_of_keyStart start, List.all_eq_true.mpr ?_⟩
    intro d member
    exact wordPart_of_keyPart (parts d member)

/-! ### Pieces of a type -/

section Pieces

variable (stack : List Frame)

theorem reads_word {word : String} (identifier : isIdentifier word = true) (factors : List Tree)
    (earlier : Groups) :
    Reads word.toList ⟨stack, .operand (factors :: earlier)⟩
      ⟨stack, .operator ((.ofWord word :: factors) :: earlier)⟩ :=
  .word identifier rfl

/-- Texts that each add branches add all of them between `|`. -/
theorem reads_alternatives {α : Type} {text : α → String} {branches : α → List Tree} {items : List α}
    (each : ∀ item ∈ items, ∀ earlier, Reads (text item).toList ⟨stack, .operand ([] :: earlier)⟩
      ⟨stack, .operator (groupsOf (branches item) ++ earlier)⟩)
    (present : items ≠ []) (earlier : Groups) :
    Reads (String.intercalate " | " (items.map text)).toList ⟨stack, .operand ([] :: earlier)⟩
      ⟨stack, .operator (groupsOf (items.flatMap branches) ++ earlier)⟩ := by
  rw [groupsOf_flatMap]
  exact .intercalate (fun groups => ⟨stack, .operand ([] :: groups)⟩)
    (fun groups => ⟨stack, .operator groups⟩) _ rfl (show punctuation? '|' = some .bar from rfl)
    (fun _ => rfl) each present earlier

theorem reads_key (outer : Groups) (members : List (Head × Tree)) (name : String) :
    Reads (Quoting.propertyKey name).toList ⟨stack, .member outer members⟩
      ⟨stack, .afterKey outer members name false⟩ := by
  unfold Quoting.propertyKey
  split
  · exact .literal rfl
  · rename_i plain
    exact .word (identifier_of_plain (Bool.eq_false_iff.mpr plain)) rfl

def Head.text : Head → String
  | .property name optional => Quoting.propertyKey name ++ (if optional then "?" else "")
  | .index => "[key: string]"

theorem reads_head (outer : Groups) (members : List (Head × Tree)) (head : Head) {text : List Char}
    {after : Reader} (later : Reads text (Reader.typeOf stack outer members head) after) :
    Reads (head.text.toList ++ ':' :: ' ' :: text) ⟨stack, .member outer members⟩ after := by
  cases head with
  | index =>
    have spelled : Head.index.text.toList ++ ':' :: ' ' :: text =
        '[' :: ("key".toList ++ ':' :: ' ' :: ("string".toList ++ ']' :: ':' :: ' ' :: text)) := rfl
    have typed : Reads (']' :: ':' :: ' ' :: text)
        ⟨stack, .signature outer members [.closeBracket, .colon]⟩ after :=
      .punctuation rfl rfl (.punctuation rfl rfl later.blank)
    have string : Reads "string".toList
        ⟨stack, .signature outer members [.word "string", .closeBracket, .colon]⟩
        ⟨stack, .signature outer members [.closeBracket, .colon]⟩ :=
      .word rfl rfl
    have key : Reads "key".toList
        ⟨stack, .signature outer members
          [.word "key", .colon, .word "string", .closeBracket, .colon]⟩
        ⟨stack, .signature outer members [.colon, .word "string", .closeBracket, .colon]⟩ :=
      .word rfl rfl
    have value := (string.append typed rfl).blank
    rw [spelled]
    exact .punctuation rfl rfl (key.append (.punctuation rfl rfl value) rfl)
  | property name optional =>
    have key := reads_key stack outer members name
    cases optional with
    | false =>
      rw [Head.text, String.toList_append, if_neg Bool.false_ne_true, List.append_assoc]
      exact key.append (.punctuation rfl rfl later.blank) rfl
    | true =>
      rw [Head.text, String.toList_append, if_pos rfl, List.append_assoc]
      exact key.append (.punctuation rfl rfl (.punctuation rfl rfl later.blank)) rfl

end Pieces

end TypeText

namespace TypeExpr
open TypeText

theorem branches_settled {type : TypeExpr} (legible : type.Legible) :
    ∀ branch ∈ type.branches, branch.Settled := by
  induction type using induct_parts with
  | step type ih =>
    have node := (legible_iff.mp legible).1
    have inside : ∀ part ∈ type.parts, ∀ branch ∈ part.branches, branch.Settled :=
      fun part member => ih part member (legible.part member)
    cases type with
    | scalar | named | array =>
      rw [branches]
      simp [Tree.Settled, Tree.factors, Tree.ofFactors]
    | literals values =>
      rw [branches]
      split <;> simp [Tree.Settled, Tree.factors, Tree.ofFactors]
    | object fields index =>
      rw [branches_object]
      simp [Tree.Settled, Tree.factors, Tree.ofFactors]
    | union members =>
      rw [branches_union]
      intro branch present
      obtain ⟨member, listed, present⟩ := List.mem_flatMap.mp present
      exact inside member listed branch present
    | intersection members =>
      rw [branches_intersection]
      rcases members with _ | ⟨first, _ | ⟨second, rest⟩⟩
      · cases node
      · simp [LegibleNode] at node
      · simp [Tree.Settled, Tree.factors, Tree.ofFactors]
    | nullable inner =>
      rw [branches]
      intro branch present
      rcases List.mem_append.mp present with own | null
      · exact inside inner (List.mem_singleton_self _) branch own
      · obtain rfl := List.mem_singleton.mp null
        rfl

theorem tree_eq {type : TypeExpr} (legible : type.Legible) : (groupsOf type.branches).tree = type.tree :=
  tree_groupsOf (branches_settled legible)

/-- Where a type may begin, the text adds the branches. -/
def ReadsBranches (type : TypeExpr) : Prop :=
  ∀ stack earlier, Reads type.text.toList ⟨stack, .operand ([] :: earlier)⟩
    ⟨stack, .operator (groupsOf type.branches ++ earlier)⟩

/-- After other factors, the text as an operand adds the tree. -/
def ReadsOperand (type : TypeExpr) : Prop :=
  ∀ stack factors earlier, Reads type.operandText.toList ⟨stack, .operand (factors :: earlier)⟩
    ⟨stack, .operator ((type.tree :: factors) :: earlier)⟩

theorem operandText_of_compound {type : TypeExpr} (compound : type.isCompound = true) :
    type.operandText = "(" ++ type.text ++ ")" := by
  simp [operandText, wrapped, compound]

theorem operandText_of_simple {type : TypeExpr} (simple : type.isCompound = false) :
    type.operandText = type.text := by
  simp [operandText, wrapped, simple]

theorem readsOperand_of_compound {type : TypeExpr} (legible : type.Legible)
    (compound : type.isCompound = true) (reads : type.ReadsBranches) : type.ReadsOperand := by
  intro stack factors earlier
  have inside := reads (.paren (factors :: earlier) :: stack) []
  rw [List.append_nil] at inside
  have closed : Reads [')']
      ⟨.paren (factors :: earlier) :: stack, .operator (groupsOf type.branches)⟩
      ⟨stack, .operator ((type.tree :: factors) :: earlier)⟩ := by
    refine .punctuation rfl ?_ (.nil _)
    rw [← tree_eq legible]
    rfl
  have spelled : type.operandText.toList = '(' :: (type.text.toList ++ [')']) := by
    simp [operandText_of_compound compound]
  rw [spelled]
  exact .punctuation rfl rfl (inside.append closed rfl)

theorem readsBranches_of_simple {type : TypeExpr} {tree : Tree} (simple : type.isCompound = false)
    (branches : type.branches = [tree]) (factors : tree.factors = [tree])
    (reads : type.ReadsOperand) : type.ReadsBranches := by
  intro stack earlier
  have operand := reads stack [] earlier
  rw [operandText_of_simple simple, TypeExpr.tree, branches] at operand
  simpa [groupsOf, branches, factors, Tree.ofBranches] using operand

/-- A member of an object type with what follows it. -/
theorem reads_entry {type : TypeExpr} (reads : type.ReadsBranches) (stack : List Frame)
    (outer : Groups) (members : List (Head × Tree)) (head : Head) {c : Char} {text : List Char}
    {after : Reader} (ends : isWordPart c = false)
    (later : Reads (c :: text)
      ⟨.member outer members head :: stack, .operator (groupsOf type.branches)⟩ after) :
    Reads ((head.text ++ ": " ++ type.text).toList ++ c :: text) ⟨stack, .member outer members⟩
      after := by
  have own := reads (.member outer members head :: stack) []
  rw [List.append_nil] at own
  have spelled : (head.text ++ ": " ++ type.text).toList ++ c :: text =
      head.text.toList ++ ':' :: ' ' :: (type.text.toList ++ c :: text) := by simp
  rw [spelled]
  exact reads_head stack outer members head (own.append later ends)

/-- The text of an object type after its first brace. -/
theorem reads_entries {entries : List (Head × TypeExpr)} (present : entries ≠ [])
    (legible : ∀ entry ∈ entries, entry.2.Legible)
    (each : ∀ entry ∈ entries, entry.2.ReadsBranches) (stack : List Frame) (outer : Groups)
    (members : List (Head × Tree)) :
    Reads ((String.intercalate "; " (entries.map fun entry =>
        entry.1.text ++ ": " ++ entry.2.text)).toList ++ [' ', '\x7d'])
      ⟨stack, .member outer members⟩
      ⟨stack, .operator (outer.place
        (.object (members ++ entries.map fun entry => (entry.1, entry.2.tree))))⟩ := by
  induction entries generalizing members with
  | nil => exact (present rfl).elim
  | cons entry rest ih =>
    obtain ⟨head, type⟩ := entry
    have own : type.ReadsBranches := each (head, type) List.mem_cons_self
    have tree : (groupsOf type.branches).tree = type.tree := tree_eq (legible _ List.mem_cons_self)
    cases rest with
    | nil =>
      have closes : Reader.step
          ⟨.member outer members head :: stack, .operator (groupsOf type.branches)⟩ .closeBrace =
            some ⟨stack, .operator (outer.place (.object (members ++ [(head, type.tree)])))⟩ := by
        rw [← tree]
        rfl
      exact reads_entry own stack outer members head rfl (.blank (.punctuation rfl closes (.nil _)))
    | cons next rest =>
      have others := ih (List.cons_ne_nil _ _)
        (fun entry member => legible entry (List.mem_cons_of_mem _ member))
        (fun entry member => each entry (List.mem_cons_of_mem _ member))
        (members ++ [(head, type.tree)])
      have continues : Reader.step
          ⟨.member outer members head :: stack, .operator (groupsOf type.branches)⟩ .semicolon =
            some ⟨stack, .member outer (members ++ [(head, type.tree)])⟩ := by
        rw [← tree]
        rfl
      have read := reads_entry own stack outer members head (show isWordPart ';' = false from rfl)
        (.punctuation rfl continues others.blank)
      rw [List.map_cons, String.intercalate_cons_of_ne_nil (by simp), String.toList_append,
        String.toList_append, List.append_assoc, List.append_assoc]
      simpa using read

theorem text_entries (fields : List (Field TypeExpr)) (index : Option TypeExpr) :
    (object fields index).text = objectText ((entries fields index).map fun entry =>
      entry.1.text ++ ": " ++ entry.2.text) := by
  rw [text_object, entries, List.map_append, List.map_map, List.map_map]
  rfl

theorem readsOperand_object {fields : List (Field TypeExpr)} {index : Option TypeExpr}
    (legible : ∀ entry ∈ entries fields index, entry.2.Legible)
    (each : ∀ entry ∈ entries fields index, entry.2.ReadsBranches) :
    (object fields index).ReadsOperand := by
  intro stack factors earlier
  rw [operandText_of_simple rfl, text_entries, tree, branches_object]
  by_cases empty : entries fields index = []
  · rw [empty]
    exact .punctuation (c := '\x7b') rfl rfl (.punctuation rfl rfl (.nil _))
  · have inside := reads_entries empty legible each stack (factors :: earlier) []
    have spelled : (objectText ((entries fields index).map fun entry =>
        entry.1.text ++ ": " ++ entry.2.text)).toList =
          '\x7b' :: ' ' :: ((String.intercalate "; " ((entries fields index).map fun entry =>
            entry.1.text ++ ": " ++ entry.2.text)).toList ++ [' ', '\x7d']) := by
      simp [objectText, empty]
    rw [spelled]
    exact .punctuation rfl rfl inside.blank

theorem readsOperand_array {items : TypeExpr} (reads : items.ReadsOperand) :
    (array items).ReadsOperand := by
  intro stack factors earlier
  rw [operandText_of_simple rfl, text_array, String.toList_append, tree, branches]
  exact (reads stack factors earlier).append (.punctuation rfl rfl (.punctuation rfl rfl (.nil _))) rfl

theorem readsBranches_union {members : List TypeExpr} (several : 2 ≤ members.length)
    (each : ∀ member ∈ members, member.ReadsBranches) : (union members).ReadsBranches := by
  intro stack earlier
  rw [text_union, branches_union]
  refine reads_alternatives stack (fun member present => each member present stack) ?_ earlier
  rintro rfl
  cases several

theorem readsBranches_nullable {inner : TypeExpr} (reads : inner.ReadsBranches) :
    (nullable inner).ReadsBranches := by
  intro stack earlier
  have null := reads_word stack (show isIdentifier "null" = true from rfl) []
    (groupsOf inner.branches ++ earlier)
  have spelled : (nullable inner).text.toList = inner.text.toList ++ [' ', '|', ' '] ++ "null".toList := by
    rw [text_nullable, String.toList_append, List.append_assoc]
    rfl
  rw [spelled, branches, groupsOf_append]
  exact (reads stack earlier).separated (show punctuation? '|' = some .bar from rfl) rfl null

theorem reads_factors {members : List TypeExpr} (each : ∀ member ∈ members, member.ReadsOperand)
    (present : members ≠ []) (stack : List Frame) (factors : List Tree) (earlier : Groups) :
    Reads (String.intercalate " & " (members.map operandText)).toList
      ⟨stack, .operand (factors :: earlier)⟩
      ⟨stack, .operator (((members.map tree).reverse ++ factors) :: earlier)⟩ := by
  rw [← List.foldl_flip_cons_eq_append]
  exact .intercalate (fun factors => ⟨stack, .operand (factors :: earlier)⟩)
    (fun factors => ⟨stack, .operator (factors :: earlier)⟩) _ rfl
    (show punctuation? '&' = some .ampersand from rfl) (fun _ => rfl)
    (fun member listed factors => each member listed stack factors earlier) present factors

theorem readsBranches_intersection {members : List TypeExpr} (several : 2 ≤ members.length)
    (each : ∀ member ∈ members, member.ReadsOperand) : (intersection members).ReadsBranches := by
  intro stack earlier
  rw [text_intersection, branches_intersection]
  have read := reads_factors each (by rintro rfl; cases several) stack [] earlier
  simpa [groupsOf, Tree.factors] using read

theorem reads_literal (value : String) (stack : List Frame) (factors : List Tree) (earlier : Groups) :
    Reads (Quoting.literal value).toList ⟨stack, .operand (factors :: earlier)⟩
      ⟨stack, .operator ((.literal value :: factors) :: earlier)⟩ :=
  .literal rfl

theorem readsBranches_literals (values : List String) : (literals values).ReadsBranches := by
  intro stack earlier
  rw [text_literals, literalsText, branches]
  split
  · exact reads_word stack (show isIdentifier "never" = true from rfl) [] earlier
  · rename_i present
    have each : ∀ value ∈ values, ∀ earlier,
        Reads (Quoting.literal value).toList ⟨stack, .operand ([] :: earlier)⟩
          ⟨stack, .operator (groupsOf [.literal value] ++ earlier)⟩ :=
      fun value _ => reads_literal value stack []
    have listed : values.map Tree.literal = values.flatMap fun value => [.literal value] :=
      List.map_eq_flatMap
    rw [listed]
    exact reads_alternatives stack each (by simpa using present) earlier

theorem readsOperand_word {type : TypeExpr} {word : String} (simple : type.isCompound = false)
    (text : type.text = word) (identifier : isIdentifier word = true)
    (branches : type.branches = [.ofWord word]) : type.ReadsOperand := by
  intro stack factors earlier
  rw [operandText_of_simple simple, text, tree, branches]
  exact reads_word stack identifier factors earlier

theorem readsOperand_literals (values : List String) : (literals values).ReadsOperand := by
  have reads := readsBranches_literals values
  cases values with
  | nil => exact readsOperand_word rfl (text_literals []) rfl (by rw [branches]; rfl)
  | cons value rest =>
    cases rest with
    | nil =>
      intro stack factors earlier
      rw [operandText_of_simple rfl, text_literals, tree, branches]
      simpa [literalsText, Tree.ofBranches] using reads_literal value stack factors earlier
    | cons next rest =>
      have legible : (literals (value :: next :: rest)).Legible :=
        legible_iff.mpr ⟨trivial, by simp [children]⟩
      exact readsOperand_of_compound legible (by simp [isCompound]) reads

theorem reads_step {type : TypeExpr} (legible : type.Legible)
    (parts : ∀ part ∈ type.parts, part.ReadsBranches ∧ part.ReadsOperand) :
    type.ReadsBranches ∧ type.ReadsOperand := by
  have node := (legible_iff.mp legible).1
  cases type with
  | scalar kind =>
    have operand : (scalar kind).ReadsOperand := by
      cases kind <;> exact readsOperand_word rfl (text_scalar _) rfl (by rw [branches]; rfl)
    exact ⟨readsBranches_of_simple rfl (by rw [branches]) rfl operand, operand⟩
  | named name =>
    have word : (named name).branches = [.ofWord name] := by
      rw [branches, Tree.ofWord, node.2]
    have operand := readsOperand_word rfl (text_named name) node.1 word
    exact ⟨readsBranches_of_simple rfl (by rw [branches]) rfl operand, operand⟩
  | literals values => exact ⟨readsBranches_literals values, readsOperand_literals values⟩
  | array items =>
    have operand := readsOperand_array (parts items (List.mem_singleton_self _)).2
    exact ⟨readsBranches_of_simple rfl (by rw [branches]) rfl operand, operand⟩
  | object fields index =>
    have inside : ∀ entry ∈ entries fields index, entry.2 ∈ (object fields index).parts :=
      fun entry member => List.mem_map_of_mem member
    have operand := readsOperand_object (fun entry member => legible.part (inside entry member))
      fun entry member => (parts _ (inside entry member)).1
    exact ⟨readsBranches_of_simple rfl (branches_object fields index) rfl operand, operand⟩
  | union members =>
    have branches := readsBranches_union node fun member present => (parts member present).1
    exact ⟨branches, readsOperand_of_compound legible rfl branches⟩
  | intersection members =>
    have branches := readsBranches_intersection node fun member present => (parts member present).2
    exact ⟨branches, readsOperand_of_compound legible rfl branches⟩
  | nullable inner =>
    have branches := readsBranches_nullable (parts inner (List.mem_singleton_self _)).1
    exact ⟨branches, readsOperand_of_compound legible rfl branches⟩

theorem reads_of_legible {type : TypeExpr} (legible : type.Legible) :
    type.ReadsBranches ∧ type.ReadsOperand := by
  induction type using induct_parts with
  | step type ih =>
    exact reads_step legible fun part member => ih part member (legible.part member)

/-- The text of a legible type parses to its tree. -/
theorem parse_text {type : TypeExpr} (legible : type.Legible) : parse type.text = some type.tree := by
  have read := (reads_of_legible legible).1 [] []
  rw [List.append_nil] at read
  rw [read.parse, tree_eq legible]

/-- A name, or literals that hold quotes and separators, or null. -/
def petTag : TypeExpr :=
  .union [.named "Pet", .nullable (.literals ["a\"|", "\\;"])]

def taggedPets : TypeExpr :=
  .intersection [.object [⟨"pet-name", .array petTag, true, none⟩] (some (.scalar .number)), .named "Tagged"]

theorem taggedPets_legible : taggedPets.Legible := by
  simp [Legible, taggedPets, petTag, subterms_eq, children, LegibleNode]
  decide

theorem petTag_tree : petTag.tree =
    .union [.name "Pet", .literal "a\"|", .literal "\\;", .predefined .null] := by
  simp [petTag, tree, branches_union, branches, Tree.ofBranches]

theorem taggedPets_parse : parse taggedPets.text = some (.intersection [
    .object [
      (.property "pet-name" true,
        .array (.union [.name "Pet", .literal "a\"|", .literal "\\;", .predefined .null])),
      (.index, .union [.predefined .number,
        .array (.union [.name "Pet", .literal "a\"|", .literal "\\;", .predefined .null])])],
    .name "Tagged"]) := by
  have pets : (array petTag).branches = [.array petTag.tree] := by
    rw [branches, tree]
  have tags : (array petTag).tree = .array petTag.tree := by
    rw [tree, pets, Tree.ofBranches]
  have number : (scalar .number).branches = [.predefined .number] := by
    rw [branches, Scalar.predefined]
  have widened : (union [scalar .number, .array petTag]).tree =
      .union [.predefined .number, .array petTag.tree] := by
    rw [tree, branches_union, List.flatMap_cons, number, List.flatMap_singleton, pets]
    rfl
  have written : entries [⟨"pet-name", .array petTag, true, none⟩] (some (.scalar .number)) =
      [(.property "pet-name" true, .array petTag),
        (.index, .union [.scalar .number, .array petTag])] := rfl
  have tagged : (named "Tagged").tree = .name "Tagged" := by
    rw [tree, branches, Tree.ofBranches]
  rw [parse_text taggedPets_legible, taggedPets, tree, branches_intersection, Tree.ofBranches,
    List.map_cons, List.map_cons, List.map_nil, tagged, tree, branches_object, written, List.map_cons,
    List.map_cons, List.map_nil, tags, widened, petTag_tree, Tree.ofBranches]

end TypeExpr
end TypedClient
