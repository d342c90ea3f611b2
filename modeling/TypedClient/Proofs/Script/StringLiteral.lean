import TypedClient.Notation.Json
import TypedClient.Proofs.TypeText.Equations
import TypedClient.Render.QueryHooks

/-!
String literals in double quotes by the grammar of the generated language, whose strings are sequences of
UTF-16 code units. Escaping covers quotes and backslashes alone, so a written literal is one, and has the
value of its text, exactly if the text holds neither a line feed nor a carriage return.
-/
namespace TypedClient
namespace StringLiteral

/-! ### The grammar -/

/-- A code point in UTF-16. -/
def encoded (point : Nat) : List UInt16 :=
  if point < 0x10000 then [.ofNat point]
  else [.ofNat (0xD800 + (point - 0x10000) / 0x400), .ofNat (0xDC00 + (point - 0x10000) % 0x400)]

def valueOf (text : List Char) : List UInt16 :=
  text.flatMap fun c => encoded c.toNat

/-- The line terminators that may not stand in a literal. -/
def breaksLine (c : Char) : Bool :=
  c == '\n' || c == '\r'

def isLineTerminator (c : Char) : Bool :=
  breaksLine c || c == '\u2028' || c == '\u2029'

/-- The characters that stand for one code unit after a backslash. -/
def single? : Char → Option UInt16
  | '\x27' => some 0x27
  | '"' => some 0x22
  | '\\' => some 0x5C
  | 'b' => some 0x08
  | 'f' => some 0x0C
  | 'n' => some 0x0A
  | 'r' => some 0x0D
  | 't' => some 0x09
  | 'v' => some 0x0B
  | _ => none

def opensEscape (c : Char) : Bool :=
  (single? c).isSome || c.isDigit || c == 'x' || c == 'u'

def hexNumber? (digits : List Char) : Option Nat :=
  digits.foldlM (fun number c => (Notation.Json.hexValue? c).map (16 * number + ·)) 0

/-- What may follow a backslash whatever comes next, with its value. -/
inductive Escape : List Char → List UInt16 → Prop where
  | single {c : Char} {unit : UInt16} (known : single? c = some unit) : Escape [c] [unit]
  | itself {c : Char} (plain : opensEscape c = false) (inLine : isLineTerminator c = false) :
      Escape [c] (encoded c.toNat)
  | hexadecimal {digits : List Char} {number : Nat} (two : digits.length = 2)
      (read : hexNumber? digits = some number) : Escape ('x' :: digits) [.ofNat number]
  | codeUnit {digits : List Char} {number : Nat} (four : digits.length = 4)
      (read : hexNumber? digits = some number) : Escape ('u' :: digits) [.ofNat number]
  | codePoint {digits : List Char} {number : Nat} (given : digits ≠ [])
      (read : hexNumber? digits = some number) (bounded : number ≤ 0x10FFFF) :
      Escape ('u' :: '\x7b' :: (digits ++ ['\x7d'])) (encoded number)
  /-- The literal goes on in the next line. -/
  | continued {c : Char} (ends : isLineTerminator c = true) : Escape [c] []
  | continuedAfterBoth : Escape ['\r', '\n'] []

/-- What stands between the quotes, with its value. -/
inductive Characters : List Char → List UInt16 → Prop where
  | nil : Characters [] []
  | plain {c : Char} {rest : List Char} {units : List UInt16} (unquoted : c ≠ '"')
      (unescaped : c ≠ '\\') (inLine : breaksLine c = false) (later : Characters rest units) :
      Characters (c :: rest) (encoded c.toNat ++ units)
  | escape {spelling rest : List Char} {own units : List UInt16} (known : Escape spelling own)
      (later : Characters rest units) : Characters ('\\' :: (spelling ++ rest)) (own ++ units)
  | zero {rest : List Char} {units : List UInt16}
      (apart : ∀ c, rest.head? = some c → c.isDigit = false) (later : Characters rest units) :
      Characters ('\\' :: '0' :: rest) (0 :: units)

/-- The text is one complete literal with this value. -/
def Denotes (literal : String) (value : List UInt16) : Prop :=
  ∃ body, literal.toList = '"' :: (body ++ ['"']) ∧ Characters body value

def Unbroken (text : String) : Prop :=
  ∀ c ∈ text.toList, breaksLine c = false

/-- The piece is a literal as long as the text has no line break, and it has no value but the text. -/
def Spells (piece text : String) : Prop :=
  ∀ value, Denotes piece value ↔ Unbroken text ∧ value = valueOf text.toList

/-! ### Reading one character -/

theorem Escape.of_single {c : Char} {unit : UInt16} {spelling rest after : List Char}
    {own : List UInt16} (escape : Escape spelling own) (known : single? c = some unit)
    (inLine : isLineTerminator c = false) (spelled : c :: rest = spelling ++ after) :
    own = [unit] ∧ after = rest := by
  cases escape with
  | single known' =>
    obtain ⟨rfl, rfl⟩ := List.cons.inj spelled
    exact ⟨congrArg (fun unit => [unit]) (Option.some.inj (known'.symm.trans known)), rfl⟩
  | itself plain =>
    obtain ⟨rfl, -⟩ := List.cons.inj spelled
    simp [opensEscape, known] at plain
  | continued ends =>
    obtain ⟨rfl, -⟩ := List.cons.inj spelled
    exact absurd (inLine.symm.trans ends) Bool.false_ne_true
  | hexadecimal | codeUnit | codePoint =>
    obtain ⟨rfl, -⟩ := List.cons.inj spelled
    cases known
  | continuedAfterBoth =>
    obtain ⟨rfl, -⟩ := List.cons.inj spelled
    cases inLine

theorem characters_nil_iff {value : List UInt16} : Characters [] value ↔ value = [] := by
  constructor
  · intro characters
    cases characters
    rfl
  · rintro rfl
    exact .nil

theorem characters_plain_iff {c : Char} {rest : List Char} {value : List UInt16} (unquoted : c ≠ '"')
    (unescaped : c ≠ '\\') : Characters (c :: rest) value ↔
      breaksLine c = false ∧ ∃ units, Characters rest units ∧ value = encoded c.toNat ++ units := by
  constructor
  · intro characters
    cases characters with
    | plain _ _ inLine later => exact ⟨inLine, _, later, rfl⟩
    | escape | zero => exact absurd rfl unescaped
  · rintro ⟨inLine, units, later, rfl⟩
    exact .plain unquoted unescaped inLine later

theorem characters_single_iff {c : Char} {unit : UInt16} {rest : List Char} {value : List UInt16}
    (known : single? c = some unit) (inLine : isLineTerminator c = false) :
    Characters ('\\' :: c :: rest) value ↔ ∃ units, Characters rest units ∧ value = unit :: units := by
  constructor
  · intro characters
    -- Every way to read a backslash is tried: only one begins with this character.
    generalize spelled : '\\' :: c :: rest = body at characters
    cases characters with
    | nil => cases spelled
    | plain _ unescaped => exact absurd (List.cons.inj spelled).1.symm unescaped
    | escape escape later =>
      obtain ⟨rfl, rfl⟩ := escape.of_single known inLine (List.cons.inj spelled).2
      exact ⟨_, later, rfl⟩
    | zero =>
      obtain ⟨rfl, -⟩ := List.cons.inj (List.cons.inj spelled).2
      cases known
  · rintro ⟨units, later, rfl⟩
    exact .escape (.single known) later

/-! ### Escaped texts -/

theorem characters_escapeChar_iff (c : Char) (rest : List Char) (value : List UInt16) :
    Characters (Quoting.escapeChar c ++ rest) value ↔
      breaksLine c = false ∧ ∃ units, Characters rest units ∧ value = encoded c.toNat ++ units := by
  unfold Quoting.escapeChar
  split
  · rename_i backslash
    obtain rfl := eq_of_beq backslash
    exact (characters_single_iff rfl rfl).trans (and_iff_right rfl).symm
  split
  · rename_i quote
    obtain rfl := eq_of_beq quote
    exact (characters_single_iff rfl rfl).trans (and_iff_right rfl).symm
  · rename_i unescaped unquoted
    exact characters_plain_iff (by simpa using unquoted) (by simpa using unescaped)

theorem characters_escaped_iff (text : List Char) (value : List UInt16) :
    Characters (text.flatMap Quoting.escapeChar) value ↔
      (∀ c ∈ text, breaksLine c = false) ∧ value = valueOf text := by
  induction text generalizing value with
  | nil => simp [characters_nil_iff, valueOf]
  | cons c text ih =>
    rw [List.flatMap_cons, characters_escapeChar_iff, List.forall_mem_cons, and_assoc]
    refine and_congr_right fun _ => ?_
    simp only [ih, valueOf, List.flatMap_cons]
    constructor
    · rintro ⟨units, ⟨inLine, rfl⟩, rfl⟩
      exact ⟨inLine, rfl⟩
    · rintro ⟨inLine, rfl⟩
      exact ⟨_, ⟨inLine, rfl⟩, rfl⟩

theorem toList_literal (text : String) :
    (Quoting.literal text).toList = '"' :: (text.toList.flatMap Quoting.escapeChar ++ ['"']) := by
  simp [Quoting.literal, Quoting.escape]

theorem spells_literal (text : String) : Spells (Quoting.literal text) text := by
  intro value
  rw [Unbroken, ← characters_escaped_iff]
  constructor
  · rintro ⟨body, spelled, characters⟩
    rw [toList_literal] at spelled
    exact List.append_cancel_right (List.cons.inj spelled).2 ▸ characters
  · intro characters
    exact ⟨_, toList_literal text, characters⟩

/-! ### Where literals are written -/

/-- Literal types, property keys that are no plain names, and query keys are written as literals of their
texts: such a literal is complete and stands for its text if and only if no line break is in the text. -/
theorem literals_spell (text : String) (first : String) (rest : List String)
    (field : Field TypeExpr) (descriptor : Descriptor) :
    Spells (Quoting.literal text) text ∧
    (∃ pieces, (TypeExpr.literals (first :: rest)).text = String.intercalate " | " pieces ∧
      List.Forall₂ Spells pieces (first :: rest)) ∧
    (∃ piece, field.key = piece ++ (if field.optional then "?" else "") ∧
      (Spells piece field.name ∨ piece = field.name ∧ Quoting.needsQuotes field.name = false)) ∧
    ∃ piece arguments,
      QueryHooks.keyItems descriptor = piece :: arguments ∧ Spells piece descriptor.path := by
  refine ⟨spells_literal text, ⟨(first :: rest).map Quoting.literal, TypeExpr.text_literals _, ?_⟩,
    ⟨_, rfl, ?_⟩, ⟨_, _, rfl, spells_literal descriptor.path⟩⟩
  · rw [List.forall₂_map_left_iff, List.forall₂_same]
    exact fun text _ => spells_literal text
  · unfold Quoting.propertyKey
    split
    · exact .inl (spells_literal field.name)
    · rename_i plain
      exact .inr ⟨rfl, Bool.eq_false_iff.mpr plain⟩

/-- A line feed stays as it is, and the literal type is no literal. -/
theorem brokenLine_undenoted : ¬ ∃ value, Denotes (TypeExpr.literals ["one\ntwo"]).text value := by
  have written : (TypeExpr.literals ["one\ntwo"]).text = Quoting.literal "one\ntwo" :=
    (TypeExpr.text_literals _).trans rfl
  rintro ⟨value, denoted⟩
  rw [written] at denoted
  have unbroken := ((spells_literal _ value).mp denoted).1
  exact absurd (unbroken '\n' (by decide)) (by decide)

end StringLiteral
end TypedClient
