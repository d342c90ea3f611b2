import TypedClient.Quoting
import TypedClient.Proofs.TypeText.Grammar

/-!
Reading a text piece by piece: a piece takes the reader from one state to the next whatever follows it,
as long as the last word of the piece ends there.
-/
namespace TypedClient.TypeText
open Scanner

/-- A word before this text ends with it. -/
def Apart (rest : List Char) : Prop :=
  ∀ c, rest.head? = some c → isWordPart c = false

/-- The text takes the reader from one state to the other. -/
def Reads (text : List Char) (before after : Reader) : Prop :=
  ∃ tokens, (∀ rest, Apart rest →
      scan .between (text ++ rest) = (scan .between rest).map (tokens ++ ·)) ∧
    tokens.foldlM Reader.step before = some after

theorem apart_cons {c : Char} (ends : isWordPart c = false) (rest : List Char) : Apart (c :: rest) := by
  intro d first
  obtain rfl := Option.some.inj first
  exact ends

/-! ### Scanning the tokens -/

theorem scan_step {scanner next : Scanner} {c : Char} {tokens : List Token} (rest : List Char)
    (stepped : scanner.step c = some (tokens, next)) :
    scan scanner (c :: rest) = (scan next rest).map (tokens ++ ·) := by
  rw [scan, stepped]
  rfl

theorem scan_silent {scanner next : Scanner} {c : Char} (rest : List Char)
    (stepped : scanner.step c = some ([], next)) : scan scanner (c :: rest) = scan next rest := by
  rw [scan_step rest stepped]
  exact Option.map_id'

theorem step_punctuation {c : Char} {token : Token} (known : punctuation? c = some token) :
    step .between c = some ([token], .between) := by
  unfold punctuation? at known
  split at known <;> cases known <;> rfl

theorem letter_bounds {c : Char} (alpha : c.isAlpha = true) :
    (65 ≤ c.toNat ∧ c.toNat ≤ 90) ∨ (97 ≤ c.toNat ∧ c.toNat ≤ 122) := by
  rcases (Bool.or_eq_true _ _).mp alpha with upper | lower
  · left
    exact of_decide_eq_true upper
  · right
    obtain ⟨low, high⟩ := (Bool.and_eq_true _ _).mp lower
    exact ⟨of_decide_eq_true low, of_decide_eq_true high⟩

theorem not_blank_of_wordStart {c : Char} (start : isWordStart c = true) : Text.isBlank c = false := by
  rw [Bool.eq_false_iff]
  intro blank
  simp only [isWordStart, Bool.or_eq_true, Bool.and_eq_true, blank, Bool.not_true, and_false,
    Bool.false_eq_true, or_false, beq_iff_eq] at start
  rcases start with (alpha | rfl) | rfl
  · have letter := letter_bounds alpha
    simp only [Text.isBlank, Char.toNat, Bool.or_eq_true, Bool.and_eq_true, decide_eq_true_eq,
      beq_iff_eq] at blank letter
    omega
  · cases blank
  · cases blank

theorem step_word {c : Char} (start : isWordStart c = true) :
    step .between c = some ([], .word [c]) := by
  have quote : c ≠ '"' := by
    rintro rfl
    cases start
  simp [step, enter, not_blank_of_wordStart start, quote, start]

theorem scan_word {chars : List Char} (read : List Char) (parts : ∀ c ∈ chars, isWordPart c = true)
    {rest : List Char} (apart : Apart rest) :
    scan (.word read) (chars ++ rest) =
      (scan .between rest).map ([.word (String.ofList (read ++ chars))] ++ ·) := by
  induction chars generalizing read with
  | nil =>
    cases rest with
    | nil => simp [scan, finish]
    | cons c rest =>
      have ends := apart c rfl
      simp only [List.nil_append, scan, step, ends, Bool.false_eq_true, if_false, List.append_nil]
      cases enter c <;> simp [Function.comp_def]
  | cons c chars ih =>
    have continues : step (.word read) c = some ([], .word (read ++ [c])) := by
      simp [step, parts c List.mem_cons_self]
    rw [List.cons_append, scan_silent _ continues,
      ih (read ++ [c]) fun d member => parts d (List.mem_cons_of_mem c member), List.append_assoc]
    rfl

theorem scan_escapeChar (c : Char) (read rest : List Char) :
    scan (.literal read) (Quoting.escapeChar c ++ rest) = scan (.literal (read ++ [c])) rest := by
  unfold Quoting.escapeChar
  have escapes : step (.literal read) '\\' = some ([], .escape read) := rfl
  split
  · rename_i backslash
    obtain rfl := eq_of_beq backslash
    exact (scan_silent _ escapes).trans (scan_silent _ rfl)
  split
  · rename_i quote
    obtain rfl := eq_of_beq quote
    exact (scan_silent _ escapes).trans (scan_silent _ rfl)
  · rename_i backslash quote
    exact scan_silent _ (by simp [step, quote, backslash])

theorem scan_escaped (chars read rest : List Char) :
    scan (.literal read) (chars.flatMap Quoting.escapeChar ++ '"' :: rest) =
      (scan .between rest).map ([.literal (String.ofList (read ++ chars))] ++ ·) := by
  induction chars generalizing read with
  | nil =>
    rw [List.append_nil]
    exact scan_step rest rfl
  | cons c chars ih =>
    rw [List.flatMap_cons, List.append_assoc, scan_escapeChar, ih, List.append_assoc]
    rfl

theorem scan_literal (text : String) (rest : List Char) :
    scan .between ((Quoting.literal text).toList ++ rest) =
      (scan .between rest).map ([.literal text] ++ ·) := by
  have spelled : (Quoting.literal text).toList ++ rest =
      '"' :: (text.toList.flatMap Quoting.escapeChar ++ '"' :: rest) := by
    simp [Quoting.literal, Quoting.escape]
  rw [spelled, scan_silent _ (show Scanner.step .between '"' = some ([], .literal []) from rfl), scan_escaped,
    List.nil_append, String.ofList_toList]

/-! ### Pieces -/

namespace Reads

variable {before between after : Reader} {first second : List Char}

theorem nil (reader : Reader) : Reads [] reader reader :=
  ⟨[], fun rest _ => by simp, rfl⟩

theorem punctuation {c : Char} {token : Token} (known : punctuation? c = some token)
    (step : before.step token = some between) (later : Reads second between after) :
    Reads (c :: second) before after := by
  obtain ⟨tokens, scanned, read⟩ := later
  refine ⟨token :: tokens, fun rest apart => ?_, ?_⟩
  · rw [List.cons_append, scan_step _ (step_punctuation known), scanned rest apart, Option.map_map]
    rfl
  · rw [List.foldlM_cons, step]
    exact read

theorem blank (later : Reads second before after) : Reads (' ' :: second) before after := by
  obtain ⟨tokens, scanned, read⟩ := later
  refine ⟨tokens, fun rest apart => ?_, read⟩
  rw [List.cons_append, scan_silent _ (show Scanner.step .between ' ' = some ([], .between) from rfl)]
  exact scanned rest apart

theorem append {c : Char} (earlier : Reads first before between)
    (later : Reads (c :: second) between after) (ends : isWordPart c = false) :
    Reads (first ++ c :: second) before after := by
  obtain ⟨tokens, scanned, read⟩ := earlier
  obtain ⟨tokens', scanned', read'⟩ := later
  refine ⟨tokens ++ tokens', fun rest apart => ?_, ?_⟩
  · have ends := apart_cons ends (second ++ rest)
    rw [List.append_assoc, scanned (c :: second ++ rest) ends, scanned' rest apart, Option.map_map]
    simp [Function.comp_def]
  · rw [List.foldlM_append, read]
    exact read'

theorem separated {c : Char} {token : Token} {middle : Reader} (earlier : Reads first before between)
    (known : punctuation? c = some token) (step : between.step token = some middle)
    (later : Reads second middle after) : Reads (first ++ [' ', c, ' '] ++ second) before after := by
  rw [List.append_assoc]
  exact earlier.append (blank (punctuation known step later.blank)) rfl

/-- Texts with an operator between them, where each moves the reader on by one item. -/
theorem intercalate {α σ : Type} {text : α → String} {items : List α} {c : Char} {token : Token}
    {separator : String} (operand operator : σ → Reader) (take : σ → α → σ)
    (spelled : separator.toList = [' ', c, ' ']) (known : punctuation? c = some token)
    (step : ∀ state, (operator state).step token = some (operand state))
    (each : ∀ item ∈ items, ∀ state,
      Reads (text item).toList (operand state) (operator (take state item)))
    (present : items ≠ []) (state : σ) :
    Reads (separator.intercalate (items.map text)).toList (operand state)
      (operator (items.foldl take state)) := by
  induction items generalizing state with
  | nil => exact (present rfl).elim
  | cons item items ih =>
    have first := each item List.mem_cons_self state
    cases items with
    | nil => simpa using first
    | cons next rest =>
      have others := ih (fun item member => each item (List.mem_cons_of_mem _ member))
        (List.cons_ne_nil _ _) (take state item)
      rw [List.map_cons, String.intercalate_cons_of_ne_nil (by simp), String.toList_append,
        String.toList_append, spelled]
      exact first.separated known (step _) others

theorem word {word : String} (identifier : isIdentifier word = true)
    (step : before.step (.word word) = some after) : Reads word.toList before after := by
  refine ⟨[.word word], fun later apart => ?_, by rw [List.foldlM_cons, step]; rfl⟩
  unfold isIdentifier at identifier
  split at identifier
  · cases identifier
  · rename_i c rest spelled
    obtain ⟨start, parts⟩ := (Bool.and_eq_true _ _).mp identifier
    have joined : String.ofList ([c] ++ rest) = word := by
      rw [← String.ofList_toList (s := word), spelled]
      rfl
    rw [spelled, List.cons_append, scan_silent _ (step_word start),
      scan_word [c] (List.all_eq_true.mp parts) apart, joined]

theorem literal {text : String} (step : before.step (.literal text) = some after) :
    Reads (Quoting.literal text).toList before after :=
  ⟨[.literal text], fun later _ => scan_literal text later, by rw [List.foldlM_cons, step]; rfl⟩

theorem parse {text : String} {groups : Groups}
    (reads : Reads text.toList .initial ⟨[], .operator groups⟩) : parse text = some groups.tree := by
  obtain ⟨tokens, scanned, read⟩ := reads
  have all : scan .between text.toList = some tokens := by
    have whole := scanned [] (fun c none => by cases none)
    simpa [scan, finish] using whole
  simp [TypeText.parse, all, read, Reader.finish]

end Reads
end TypedClient.TypeText
