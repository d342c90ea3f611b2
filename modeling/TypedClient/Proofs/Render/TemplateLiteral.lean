import TypedClient.Render.Fetch

/-!
Template literals read back. An escaped backtick stands for itself, an interpolation runs to the next
closing brace, and the closing backtick is the last character.
-/
namespace TypedClient.TemplateLiteral

inductive Piece where
  | char (c : Char)
  | value (expression : String)
  deriving DecidableEq

mutual

def readText : List Char → Option (List Piece)
  | [] => none
  | '\x60' :: rest => if rest.isEmpty then some [] else none
  | '\\' :: '\x60' :: rest => (readText rest).map (.char '\x60' :: ·)
  | '$' :: '\x7b' :: rest => readExpression [] rest
  | c :: rest => if c = '\\' then none else (readText rest).map (.char c :: ·)

def readExpression (expression : List Char) : List Char → Option (List Piece)
  | [] => none
  | '\x7d' :: rest => (readText rest).map (.value (String.ofList expression) :: ·)
  | c :: rest => readExpression (expression ++ [c]) rest

end

def readLiteral (literal : String) : Option (List Piece) :=
  match literal.toList with
  | '\x60' :: rest => readText rest
  | _ => none

theorem readLiteral_eq {literal : String} {rest : List Char}
    (opens : literal.toList = '\x60' :: rest) : readLiteral literal = readText rest := by
  rw [readLiteral, opens]
  rfl

/-! ### What is written is read -/

theorem readText_char {c : Char} {rest : List Char} (unclosed : c ≠ '\x60') (unescaped : c ≠ '\\')
    (apart : c = '$' → rest.head? ≠ some '\x7b') :
    readText (c :: rest) = (readText rest).map (.char c :: ·) := by
  rw [readText, if_neg unescaped]
  · exact unclosed
  · exact fun _ same _ => unescaped same
  · exact fun _ same opens => apart same (opens ▸ rfl)

theorem readText_backtick (rest : List Char) :
    readText ('\\' :: '\x60' :: rest) = (readText rest).map (.char '\x60' :: ·) := by
  rw [readText]

theorem readExpression_value (read : List Char) {expression : List Char} (closed : '\x7d' ∉ expression)
    (rest : List Char) :
    readExpression read (expression ++ '\x7d' :: rest) =
      (readText rest).map (.value (String.ofList (read ++ expression)) :: ·) := by
  induction expression generalizing read with
  | nil => simp [readExpression]
  | cons c expression ih =>
    obtain ⟨other, closed⟩ := not_or.mp (mt List.mem_cons.mpr closed)
    rw [List.cons_append, readExpression, ih _ closed, List.append_assoc, List.singleton_append]
    exact fun same => other same.symm

theorem readText_value {expression : List Char} (closed : '\x7d' ∉ expression) (rest : List Char) :
    readText ('$' :: '\x7b' :: (expression ++ '\x7d' :: rest)) =
      (readText rest).map (.value (String.ofList expression) :: ·) := by
  rw [readText, readExpression_value [] closed, List.nil_append]

/-! ### Escaped text -/

def escaped (text : List Char) : List Char :=
  text.flatMap fun c => if c == '\x60' then ['\\', '\x60'] else [c]

theorem toList_escapeTemplate (text : String) :
    (Fetch.escapeTemplate text).toList = escaped text.toList :=
  String.toList_ofList

theorem escaped_append (front back : List Char) :
    escaped (front ++ back) = escaped front ++ escaped back :=
  List.flatMap_append

theorem escaped_of_unquoted {text : List Char} (unquoted : '\x60' ∉ text) : escaped text = text := by
  induction text with
  | nil => rfl
  | cons c text ih =>
    obtain ⟨other, unquoted⟩ := not_or.mp (mt List.mem_cons.mpr unquoted)
    have same := ih unquoted
    unfold escaped at same ⊢
    rw [List.flatMap_cons, same, if_neg (by simpa using Ne.symm other), List.singleton_append]

/-- No backslash, and no dollar sign in front of an opening brace. -/
structure Unescaped (text : List Char) : Prop where
  backslash : '\\' ∉ text
  interpolation : ¬ ['$', '\x7b'] <:+: text

theorem Unescaped.tail {c : Char} {text : List Char} (unescaped : Unescaped (c :: text)) :
    Unescaped text where
  backslash := fun member => unescaped.backslash (List.mem_cons_of_mem c member)
  interpolation := fun inside => unescaped.interpolation (List.infix_cons inside)

theorem head?_escaped {text rest : List Char} (first : text.head? ≠ some '\x7b')
    (apart : rest.head? ≠ some '\x7b') : (escaped text ++ rest).head? ≠ some '\x7b' := by
  cases text with
  | nil => exact apart
  | cons c text =>
    rw [escaped, List.flatMap_cons]
    split
    · simp
    · simpa using first

theorem readText_escaped {text : List Char} (unescaped : Unescaped text) {rest : List Char}
    (apart : rest.head? ≠ some '\x7b') :
    readText (escaped text ++ rest) = (readText rest).map (text.map .char ++ ·) := by
  induction text with
  | nil => simp [escaped]
  | cons c text ih =>
    have later := ih unescaped.tail
    have cons : escaped (c :: text) ++ rest =
        (if c == '\x60' then ['\\', '\x60'] else [c]) ++ (escaped text ++ rest) := by
      rw [escaped, List.flatMap_cons, List.append_assoc]
      rfl
    rw [cons]
    by_cases quote : c = '\x60'
    · subst quote
      change readText ('\\' :: '\x60' :: (escaped text ++ rest)) = _
      rw [readText_backtick, later, Option.map_map]
      rfl
    · have backslash : c ≠ '\\' := fun same => unescaped.backslash (same ▸ List.mem_cons_self)
      have dollar : c = '$' → (escaped text ++ rest).head? ≠ some '\x7b' := by
        intro same
        refine head?_escaped (fun opens => ?_) apart
        obtain ⟨after, rfl⟩ := List.head?_eq_some_iff.mp opens
        exact unescaped.interpolation ⟨[], after, by rw [same]; rfl⟩
      rw [if_neg (by simpa using quote), List.singleton_append,
        readText_char quote backslash dollar, later, Option.map_map]
      rfl

end TypedClient.TemplateLiteral
