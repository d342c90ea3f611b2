import Mathlib.Logic.Embedding.Basic
import TypedClient.Proofs.Render.Arguments
import TypedClient.Proofs.TypeText.Reading

/-!
The keys under which queries are cached, as values. A key starts with the text of its literal and goes on
with what the key function was called with, so it tells paths apart, and calls by all arguments but the
headers.
-/
namespace TypedClient
open Fetch TypeText

/-! ### Literals -/

/-- The text that a string literal stands for. -/
def Quoting.read? (item : String) : Option String :=
  match Scanner.scan .between item.toList with
  | some [.literal text] => some text
  | _ => none

theorem Quoting.read?_literal (text : String) : read? (literal text) = some text := by
  have scanned := scan_literal text []
  rw [List.append_nil] at scanned
  rw [read?, scanned]
  rfl

theorem Quoting.literal_injective : Function.Injective literal := by
  intro text other same
  have read := congrArg read? same
  rw [read?_literal, read?_literal] at read
  exact Option.some.inj read

namespace QueryHooks

/-! ### Keys as values -/

section Values

variable {Value : Type} (quoted : String ↪ Value) (undefined : Value)

/-- What a name stands for in a function that is called with these values. -/
def bound (parameters : List Argument) (values : List Value) (name : String) : Value :=
  (((names parameters).zip values).lookup name).getD undefined

/-- The elements of an array that is written as a string literal followed by names. -/
def elements (scope : String → Value) : List String → List Value
  | [] => []
  | first :: names => ((Quoting.read? first).map quoted).getD undefined :: names.map scope

/-- What the key function gives for these values. -/
def keyResult (descriptor : Descriptor) (values : List Value) : List Value :=
  elements quoted undefined (bound undefined (keyArguments descriptor) values) (keyItems descriptor)

/-- The key in a query hook whose parameters stand for `scope`. -/
def hookKey (descriptor : Descriptor) (scope : String → Value) : List Value :=
  keyResult quoted undefined descriptor ((keyCall descriptor).arguments.map scope)

variable {quoted undefined}

theorem bound_map (scope : String → Value) {parameters : List Argument} {name : String}
    (member : name ∈ names parameters) :
    bound undefined parameters ((names parameters).map scope) name = scope name := by
  unfold bound names at *
  induction parameters with
  | nil => cases member
  | cons first rest ih =>
    rw [List.map_cons, List.map_cons, List.zip_cons_cons, List.lookup_cons]
    rw [List.map_cons] at member
    by_cases same : name = first.name
    · simp [same]
    · rw [beq_false_of_ne same]
      exact ih ((List.mem_cons.mp member).resolve_left same)

theorem keyResult_cons (descriptor : Descriptor) (values : List Value) :
    keyResult quoted undefined descriptor values = quoted descriptor.path ::
      (names (keyArguments descriptor)).map (bound undefined (keyArguments descriptor) values) := by
  rw [keyResult, keyItems, elements, Quoting.read?_literal]
  rfl

theorem hookKey_eq (descriptor : Descriptor) (scope : String → Value) :
    hookKey quoted undefined descriptor scope =
      quoted descriptor.path :: (names (keyArguments descriptor)).map scope := by
  rw [hookKey, keyResult_cons]
  exact congrArg _ (List.map_congr_left fun name member => bound_map scope member)

end Values

/-! ### What keys tell apart -/

theorem keyItems_head_ne {first later : Descriptor} (different : first.path ≠ later.path) :
    (keyItems first).head? ≠ (keyItems later).head? :=
  fun same => different (Quoting.literal_injective (Option.some.inj same))

theorem keyResult_ne {Value : Type} {quoted : String ↪ Value} {undefined : Value}
    {first later : Descriptor} (different : first.path ≠ later.path) (values others : List Value) :
    keyResult quoted undefined first values ≠ keyResult quoted undefined later others := by
  rw [keyResult_cons, keyResult_cons]
  exact fun same => different (quoted.injective (List.cons.inj same).1)

/-- All arguments but the headers are arguments of the key. -/
theorem keyArguments_perm (descriptor : Descriptor) : (keyArguments descriptor).Perm
    (pathArguments descriptor ++ bodyArgument descriptor ++ queryArgument descriptor) := by
  have all := (callArguments_perm_key descriptor).symm.trans (callArguments_perm descriptor)
  rw [fixedArguments, ← List.append_assoc, ← List.append_assoc] at all
  exact (List.perm_append_right_iff _).mp all

/-- How a key identifies a call: every argument but the headers occurs in it, and the keys of two calls
are equal exactly if these calls agree on every path, body and query argument. -/
structure Identifies {Value : Type} (quoted : String ↪ Value) (undefined : Value)
    (descriptor : Descriptor) : Prop where
  occurs : ∀ argument ∈ callArguments descriptor, argument ∉ headersArgument descriptor →
    argument.name ∈ (keyItems descriptor).tail
  hookKey_inj : ∀ scope other : String → Value,
    hookKey quoted undefined descriptor scope = hookKey quoted undefined descriptor other ↔
      ∀ argument ∈ pathArguments descriptor ++ bodyArgument descriptor ++ queryArgument descriptor,
        scope argument.name = other argument.name

theorem identifies {Value : Type} (quoted : String ↪ Value) (undefined : Value)
    (descriptor : Descriptor) : Identifies quoted undefined descriptor where
  occurs argument member other := by
    have key := (callArguments_perm_key descriptor).subset member
    exact List.mem_map_of_mem ((List.mem_append.mp key).resolve_right other)
  hookKey_inj scope other := by
    rw [hookKey_eq, hookKey_eq, List.cons.injEq, and_iff_right rfl, List.map_inj_left, names,
      List.forall_mem_map]
    exact forall_congr' fun argument => imp_congr_left (keyArguments_perm descriptor).mem_iff

end QueryHooks
end TypedClient
