import TypedClient.Proofs.Render.Labels
import TypedClient.Proofs.Text.Pieces

/-!
The functions, constants and helpers that a module declares, in the order in which they stand in its
text.
-/
namespace TypedClient

/-- How a name is declared. -/
inductive Form where
  | errorClass
  | asyncHelper
  | helper
  | asyncFunction
  | function
  | arrow
  | table
  deriving DecidableEq

def Form.opening : Form → String
  | .errorClass => "export class "
  | .asyncHelper => "async function "
  | .helper => "function "
  | .asyncFunction => "export async function "
  | .function => "export function "
  | .arrow | .table => "export const "

def Form.closing : Form → String
  | .errorClass => "<"
  | .asyncHelper | .helper | .asyncFunction | .function => "("
  | .arrow => " = ("
  | .table => " = \x7b"

structure Binding where
  form : Form
  name : String
  deriving DecidableEq

def Binding.text (binding : Binding) : String :=
  binding.form.opening ++ binding.name ++ binding.form.closing

theorem Binding.settled (binding : Binding) : Text.Settled binding.text.toList := by
  have closing : Text.Settled binding.form.closing.toList := by
    cases binding.form with
    | errorClass => exact ⟨[], '<', rfl, by decide⟩
    | asyncHelper | helper | asyncFunction | function => exact ⟨[], '(', rfl, by decide⟩
    | arrow => exact ⟨" = ".toList, '(', rfl, by decide⟩
    | table => exact ⟨" = ".toList, '\x7b', rfl, by decide⟩
  rw [text, String.toList_append]
  exact closing.append_left _

/-! ### Texts that declare names -/

/-- The text declares the names in this order. -/
def Declares (text : String) (bindings : List Binding) : Prop :=
  Text.Shows (bindings.map fun binding => binding.text.toList) text.toList

namespace Declares

variable {text more : String} {bindings others : List Binding}

theorem none (text : String) : Declares text [] :=
  Text.Shows.none _

/-- What stands around the declaration is found by unification. -/
theorem single (form : Form) (before name rest : String) :
    Declares (before ++ (form.opening ++ (name ++ (form.closing ++ rest)))) [⟨form, name⟩] := by
  have whole : before ++ (form.opening ++ (name ++ (form.closing ++ rest))) =
      before ++ Binding.text ⟨form, name⟩ ++ rest := by
    simp only [Binding.text, String.append_assoc]
  rw [Declares, whole, String.toList_append, String.toList_append]
  exact Text.Shows.single _ _ _

theorem append (first : Declares text bindings) (second : Declares more others) :
    Declares (text ++ more) (bindings ++ others) := by
  rw [Declares, List.map_append, String.toList_append]
  exact Text.Shows.append first second

theorem after (before : String) (declares : Declares text bindings) :
    Declares (before ++ text) bindings :=
  (none before).append declares

theorem before (declares : Declares text bindings) (rest : String) :
    Declares (text ++ rest) bindings := by
  rw [← List.append_nil bindings]
  exact declares.append (none rest)

theorem trimmed (declares : Declares text bindings) : Declares (Generation.trimEnd text) bindings := by
  rw [Declares, Generation.trimEnd, String.toList_ofList]
  refine Text.Shows.trimmed declares fun piece member => ?_
  obtain ⟨binding, -, rfl⟩ := List.mem_map.mp member
  exact binding.settled

theorem eq_nil_of_empty (declares : Declares text bindings) (empty : text.isEmpty = true) :
    bindings = [] := by
  rw [String.isEmpty_iff] at empty
  subst empty
  refine List.map_eq_nil_iff.mp (Text.Shows.eq_nil_of_empty declares fun piece member => ?_)
  obtain ⟨binding, -, rfl⟩ := List.mem_map.mp member
  exact binding.settled.filled

theorem intercalate (separator : String) {texts : List String} {each : List (List Binding)}
    (declares : List.Forall₂ Declares texts each) :
    Declares (separator.intercalate texts) each.flatten := by
  rw [Declares, List.map_flatten, String.toList_intercalate]
  apply Text.Shows.intercalate
  rw [List.forall₂_map_left_iff, List.forall₂_map_right_iff]
  exact declares.flip

/-- The filter takes away only texts that declare nothing. -/
theorem filtered {texts : List String} {each : List (List Binding)}
    (declares : List.Forall₂ Declares texts each) :
    ∃ rest, List.Forall₂ Declares (texts.filter (!·.isEmpty)) rest ∧ rest.flatten = each.flatten := by
  induction declares with
  | nil => exact ⟨[], .nil, rfl⟩
  | @cons text bindings texts each first _ ih =>
    obtain ⟨rest, later, same⟩ := ih
    cases empty : text.isEmpty with
    | true =>
      refine ⟨rest, ?_, ?_⟩
      · rwa [List.filter_cons_of_neg (by rw [empty]; decide)]
      · rw [List.flatten_cons, first.eq_nil_of_empty empty, List.nil_append, same]
    | false =>
      refine ⟨bindings :: rest, ?_, ?_⟩
      · rw [List.filter_cons_of_pos (by rw [empty]; decide)]
        exact .cons first later
      · rw [List.flatten_cons, List.flatten_cons, same]

/-- The other texts may declare what they like. -/
theorem of_sublist (separator : String) {chosen texts : List String} {each : List (List Binding)}
    (listed : chosen.Sublist texts) (declares : List.Forall₂ Declares chosen each) :
    Declares (separator.intercalate texts) each.flatten := by
  have whole : ∃ whole, List.Forall₂ Declares texts whole ∧ whole.flatten = each.flatten := by
    induction listed generalizing each with
    | slnil =>
      cases declares
      exact ⟨[], .nil, rfl⟩
    | cons text _ ih =>
      obtain ⟨whole, later, same⟩ := ih declares
      exact ⟨[] :: whole, .cons (none text) later, by rw [List.flatten_cons, List.nil_append, same]⟩
    | cons_cons text _ ih =>
      cases declares with
      | @cons _ bindings _ _ first rest =>
        obtain ⟨whole, later, same⟩ := ih rest
        exact ⟨bindings :: whole, .cons first later, by rw [List.flatten_cons, List.flatten_cons, same]⟩
  obtain ⟨whole, shown, same⟩ := whole
  rw [← same]
  exact intercalate separator shown

end Declares

/-! ### What the flavors declare -/

/-- What the preamble declares. -/
def Fetch.helpers : List Binding :=
  [⟨.errorClass, "ApiError"⟩, ⟨.asyncHelper, "readBody"⟩, ⟨.helper, "toQueryString"⟩]

namespace Flavor

def operationBindings : Flavor → Descriptor → List Binding
  | .fetch, descriptor => [⟨.asyncFunction, Fetch.functionName descriptor⟩]
  | .reactQuery, descriptor =>
    ⟨.asyncFunction, Fetch.functionName descriptor⟩ ::
      ((if descriptor.verb.isQuery then [⟨.arrow, QueryHooks.keyName descriptor⟩] else []) ++
        [⟨.function, QueryHooks.hookName descriptor⟩])

/-- What is declared once for all operations. -/
def sharedBindings : Flavor → RenderMode → List Binding
  | .fetch, .aggregate => [⟨.table, "api"⟩]
  | _, _ => []

def bindings (flavor : Flavor) (mode : RenderMode) (components : List Descriptor) : List Binding :=
  Fetch.helpers ++ components.flatMap flavor.operationBindings ++
    if components.isEmpty then [] else flavor.sharedBindings mode

end Flavor

theorem FunctionDecl.declares {decl : FunctionDecl} (async : decl.async = true) :
    Declares decl.text [⟨.asyncFunction, decl.name⟩] := by
  have keyword (rest : String) :
      "export " ++ ("async " ++ ("function " ++ rest)) = "export async function " ++ rest := by
    apply String.toList_inj.mp
    simp
  unfold FunctionDecl.text
  rw [async, if_pos rfl]
  simp only [String.append_assoc]
  rw [keyword]
  exact Declares.single .asyncFunction _ decl.name _

theorem Fetch.declares_operation (descriptor : Descriptor) :
    Declares (Fetch.operation descriptor) [⟨.asyncFunction, functionName descriptor⟩] :=
  FunctionDecl.declares rfl

namespace QueryHooks

theorem declares_keyFunction (descriptor : Descriptor) :
    Declares (keyFunction descriptor) [⟨.arrow, keyName descriptor⟩] := by
  have shown (rest : String) := Declares.single .arrow "" (keyName descriptor) rest
  simp only [String.empty_append] at shown
  unfold keyFunction
  simp only [String.append_assoc]
  exact shown _

theorem declares_queryHook (descriptor : Descriptor) :
    Declares (queryHook descriptor)
      [⟨.arrow, keyName descriptor⟩, ⟨.function, hookName descriptor⟩] := by
  unfold queryHook
  simp only [String.append_assoc]
  exact (declares_keyFunction descriptor).append
    (Declares.single .function (docLines descriptor) (hookName descriptor) _)

theorem declares_mutationHook (descriptor : Descriptor) :
    Declares (mutationHook descriptor) [⟨.function, hookName descriptor⟩] := by
  have options : "(mutationOptions?: Omit<UseMutationOptions<" =
      "(" ++ "mutationOptions?: Omit<UseMutationOptions<" := by
    apply String.toList_inj.mp
    simp
  unfold mutationHook
  rw [options]
  simp only [String.append_assoc]
  exact Declares.single .function (docLines descriptor) (hookName descriptor) _

end QueryHooks

theorem Flavor.declares_operation (flavor : Flavor) (descriptor : Descriptor) :
    Declares (flavor.renderer.operation descriptor) (flavor.operationBindings descriptor) := by
  cases flavor with
  | fetch => exact Fetch.declares_operation descriptor
  | reactQuery =>
    have function := (Fetch.declares_operation descriptor).before "\n"
    change Declares (QueryHooks.operation descriptor) _
    rw [QueryHooks.operation, operationBindings]
    split
    · exact function.append (QueryHooks.declares_queryHook descriptor)
    · exact function.append (QueryHooks.declares_mutationHook descriptor)

theorem Fetch.declares_preamble : Declares preamble helpers := by
  have error := Declares.single .errorClass "" "ApiError" "TBody = unknown> extends Error \x7b"
  have reader := Declares.single .asyncHelper "" "readBody" "res: Response): Promise<unknown> \x7b"
  have query := Declares.single .helper "" "toQueryString" "params?: object): string \x7b"
  exact Declares.of_sublist "\n" (by decide +kernel) (.cons error (.cons reader (.cons query .nil)))

theorem Flavor.declares_preamble (flavor : Flavor) :
    ∃ preamble, flavor.renderer.preamble = some preamble ∧ Declares preamble Fetch.helpers := by
  cases flavor with
  | fetch => exact ⟨_, rfl, Fetch.declares_preamble⟩
  | reactQuery => exact ⟨_, rfl, Fetch.declares_preamble.after _⟩

/-! ### What a whole module declares -/

namespace Generation

theorem declares_operations {flavor : Flavor} {each : Descriptor → String}
    (declares : ∀ descriptor, Declares (each descriptor) (flavor.operationBindings descriptor))
    (separator : String) (components : List Descriptor) :
    Declares (separator.intercalate (components.map each))
      (components.flatMap flavor.operationBindings) := by
  rw [List.flatMap_def]
  apply Declares.intercalate
  rw [List.forall₂_map_left_iff, List.forall₂_map_right_iff, List.forall₂_same]
  exact fun descriptor _ => declares descriptor

theorem declares_operationsText (flavor : Flavor) (mode : RenderMode) (components : List Descriptor) :
    Declares (operationsText components flavor.renderer mode)
      (components.flatMap flavor.operationBindings ++ flavor.sharedBindings mode) := by
  cases mode with
  | perOperation =>
    have shared : flavor.sharedBindings .perOperation = [] := by cases flavor <;> rfl
    rw [shared, List.append_nil]
    exact declares_operations (fun descriptor => (flavor.declares_operation descriptor).trimmed) _ _
  | aggregate =>
    have operations (separator : String) :=
      declares_operations flavor.declares_operation separator components
    cases flavor with
    | reactQuery =>
      have shared : Flavor.reactQuery.sharedBindings .aggregate = [] := rfl
      rw [shared, List.append_nil]
      exact operations "\n"
    | fetch =>
      have opening : "\nexport const api = \x7b\n" =
          "\n" ++ ("export const " ++ ("api" ++ (" = \x7b" ++ "\n"))) := by
        apply String.toList_inj.mp
        simp
      change Declares (Fetch.operations components) _
      unfold Fetch.operations
      rw [opening]
      simp only [String.append_assoc]
      exact (operations "\n").append (Declares.single .table "\n" "api" _)

theorem declares_sections (generation : Generation) (flavor : Flavor) (mode : RenderMode) :
    ∃ each, List.Forall₂ Declares (generation.sections flavor.renderer mode) each ∧
      each.flatten = flavor.bindings mode generation.components := by
  obtain ⟨preamble, present, helpers⟩ := flavor.declares_preamble
  -- A section that is left out of the text is left out of what it declares by the same condition.
  have optional {text : String} {bindings : List Binding} (left : Bool)
      (declares : Declares text bindings) :
      List.Forall₂ Declares (if left then [] else [text]) (if left then [] else [bindings]) := by
    cases left with
    | true => exact .nil
    | false => exact .cons declares .nil
  have types := optional generation.types.definitions.isEmpty
    (Declares.none (flavor.renderer.types generation.types.definitions))
  have operations := optional generation.components.isEmpty
    (declares_operationsText flavor mode generation.components)
  rw [sections, present, Option.toList_some]
  refine ⟨_, List.rel_append (List.rel_append (.cons helpers .nil) types) operations, ?_⟩
  rw [Flavor.bindings]
  cases generation.types.definitions.isEmpty <;> cases generation.components <;> simp

theorem declares_render (generation : Generation) (flavor : Flavor) (mode : RenderMode) :
    Declares (generation.render flavor.renderer mode) (flavor.bindings mode generation.components) := by
  obtain ⟨each, declares, same⟩ := generation.declares_sections flavor mode
  have trimmed : List.Forall₂ Declares ((generation.sections flavor.renderer mode).map trimEnd) each :=
    List.forall₂_map_left_iff.mpr (declares.imp fun _ _ => Declares.trimmed)
  obtain ⟨rest, filtered, whole⟩ := Declares.filtered trimmed
  rw [← same, ← whole]
  exact (Declares.intercalate "\n\n" filtered).before "\n"

end Generation
end TypedClient
