import TypedClient.Command.Settings
import TypedClient.Proofs.Text.Pieces

/-!
The two modes of rendering. The text of every operation ends with a closing brace and a line feed, so it
does not matter whether operations are trimmed one by one or all together: what the modes differ in is
what a flavor adds behind all operations.
-/
namespace TypedClient
open Text (intercalate_ended intercalate_continued settled_intercalate)

/-! ### Trimmed texts -/

namespace Generation

theorem trimEnd_settled {text : String} (settled : Text.Settled text.toList) : trimEnd text = text := by
  have kept := Text.trimEnd_settled settled []
  rw [List.append_nil] at kept
  rw [trimEnd, kept, Text.trimEnd, List.append_nil, String.ofList_toList]

theorem trimEnd_line {text : String} (settled : Text.Settled text.toList) :
    trimEnd (text ++ "\n") = text := by
  have feed : Text.trimEnd "\n".toList = [] := by decide
  rw [trimEnd, String.toList_append, Text.trimEnd_settled settled, feed, List.append_nil,
    String.ofList_toList]

end Generation

/-- The text ends with a line feed, and before it with no white space. -/
def LineEnded (text : String) : Prop :=
  ∃ front, text = front ++ "\n" ∧ Text.Settled front.toList

namespace LineEnded

variable {text : String}

theorem settled (ended : LineEnded text) : Text.Settled (Generation.trimEnd text).toList := by
  obtain ⟨front, rfl, settled⟩ := ended
  rwa [Generation.trimEnd_line settled]

theorem trimEnd_append (ended : LineEnded text) : Generation.trimEnd text ++ "\n" = text := by
  obtain ⟨front, rfl, settled⟩ := ended
  rw [Generation.trimEnd_line settled]

theorem after (before : String) (ended : LineEnded text) : LineEnded (before ++ text) := by
  obtain ⟨front, rfl, settled⟩ := ended
  refine ⟨before ++ front, (String.append_assoc ..).symm, ?_⟩
  rw [String.toList_append]
  exact settled.append_left _

theorem brace : LineEnded "\x7d\n" :=
  ⟨"\x7d", by decide, [], '\x7d', by decide, by decide⟩

end LineEnded

/-! ### What operations end with -/

theorem FunctionDecl.ended_text (decl : FunctionDecl) : LineEnded decl.text :=
  LineEnded.brace.after _

theorem QueryHooks.ended_operation (descriptor : Descriptor) : LineEnded (operation descriptor) := by
  have query : ",\n  \x7d);\n\x7d\n" = ",\n  \x7d);\n" ++ "\x7d\n" := by decide
  have mutation : ",\n    ...mutationOptions,\n  \x7d);\n\x7d\n" =
      ",\n    ...mutationOptions,\n  \x7d);\n" ++ "\x7d\n" := by decide
  rw [operation]
  apply LineEnded.after
  split
  · rw [queryHook, query]
    exact (LineEnded.brace.after _).after _
  · rw [mutationHook, mutation]
    exact (LineEnded.brace.after _).after _

theorem Flavor.ended_operation (flavor : Flavor) (descriptor : Descriptor) :
    LineEnded (flavor.renderer.operation descriptor) := by
  cases flavor with
  | fetch => exact FunctionDecl.ended_text _
  | reactQuery => exact QueryHooks.ended_operation descriptor

/-! ### Texts of all operations -/

/-- The object with all functions. -/
def Fetch.apiBlock (components : List Descriptor) : String :=
  "export const api = \x7b\n" ++
    String.join (components.map fun descriptor => "  " ++ functionName descriptor ++ ",\n") ++ "\x7d;\n"

/-- What stands behind all operations in the aggregate only. -/
def Flavor.appendix : Flavor → List Descriptor → String
  | .fetch, components => if components.isEmpty then "" else "\n" ++ Fetch.apiBlock components
  | .reactQuery, _ => ""

namespace Generation

section Operations

variable {components : List Descriptor} {renderer : Renderer}
  (ended : ∀ descriptor, LineEnded (renderer.operation descriptor))
include ended

theorem joined_eq (filled : components ≠ []) :
    "\n".intercalate (components.map renderer.operation) =
      operationsText components renderer .perOperation ++ "\n" := by
  have lines : components.map renderer.operation =
      (components.map fun descriptor => trimEnd (renderer.operation descriptor)).map (· ++ "\n") := by
    rw [List.map_map]
    exact List.map_congr_left fun descriptor _ => (ended descriptor).trimEnd_append.symm
  rw [lines, intercalate_ended _ _ (by simpa using filled)]
  rfl

theorem settled_perOperation (filled : components ≠ []) :
    Text.Settled (operationsText components renderer .perOperation).toList := by
  refine settled_intercalate "\n\n" (by simpa using filled) fun text member => ?_
  obtain ⟨descriptor, -, rfl⟩ := List.mem_map.mp member
  exact (ended descriptor).settled

end Operations

/-- What stands before the operations. -/
def leading (generation : Generation) (renderer : Renderer) : List String :=
  ((renderer.preamble.toList ++
    (if generation.types.definitions.isEmpty then []
      else [renderer.types generation.types.definitions])).map trimEnd).filter (!·.isEmpty)

theorem render_eq {generation : Generation} {renderer : Renderer} {mode : RenderMode}
    (filled : generation.components ≠ [])
    (settled : Text.Settled (trimEnd (operationsText generation.components renderer mode)).toList) :
    generation.render renderer mode = "\n\n".intercalate
      (generation.leading renderer ++ [trimEnd (operationsText generation.components renderer mode) ++ "\n"]) := by
  have shown : (trimEnd (operationsText generation.components renderer mode)).isEmpty = false := by
    rw [Bool.eq_false_iff, ne_eq, String.isEmpty_iff, ← String.toList_eq_nil_iff]
    exact settled.filled
  rw [intercalate_continued, render, sections, List.isEmpty_eq_false_iff.mpr filled,
    if_neg Bool.false_ne_true, List.map_append, List.filter_append, List.map_singleton,
    List.filter_singleton, shown]
  rfl

end Generation

theorem Fetch.ended_apiBlock (components : List Descriptor) : LineEnded (apiBlock components) :=
  LineEnded.after _ ⟨"\x7d;", by decide, ['\x7d'], ';', by decide, by decide⟩

namespace Flavor

variable (flavor : Flavor) {components : List Descriptor} (filled : components ≠ [])
include filled

/-- The text of all operations goes on where their texts one by one have ended. -/
theorem operations_eq : flavor.renderer.operations components =
    Generation.operationsText components flavor.renderer .perOperation ++ "\n" ++
      flavor.appendix components := by
  rw [← Generation.joined_eq flavor.ended_operation filled, appendix.eq_def]
  cases flavor with
  | reactQuery => exact String.append_empty.symm
  | fetch =>
    have opening : "\nexport const api = \x7b\n" = "\n" ++ "export const api = \x7b\n" := by
      apply String.toList_inj.mp
      simp
    change Fetch.operations components = _
    unfold Fetch.operations Fetch.apiBlock
    rw [opening]
    simp only [List.isEmpty_eq_false_iff.mpr filled, if_neg Bool.false_ne_true, String.append_assoc]
    rfl

theorem ended_operations : LineEnded (flavor.renderer.operations components) := by
  have settled := Generation.settled_perOperation flavor.ended_operation filled
  rw [flavor.operations_eq filled]
  cases flavor with
  | reactQuery => exact ⟨_, String.append_empty, settled⟩
  | fetch =>
    rw [appendix, List.isEmpty_eq_false_iff.mpr filled, if_neg Bool.false_ne_true]
    exact ((Fetch.ended_apiBlock components).after _).after _

end Flavor

/-- A preamble changes neither operations nor how they are joined. -/
theorem Settings.operationsText_renderer (settings : Settings) (components : List Descriptor)
    (mode : RenderMode) : Generation.operationsText components settings.renderer mode =
      Generation.operationsText components settings.flavor.renderer mode := by
  unfold renderer
  cases settings.preamble <;> rfl

/-- The aggregate is the text by operations and the appendix of the flavor. -/
theorem Generation.render_aggregate (generation : Generation) (settings : Settings) :
    generation.render settings.renderer .aggregate =
      generation.render settings.renderer .perOperation ++
        settings.flavor.appendix generation.components := by
  by_cases empty : generation.components = []
  · have nothing : settings.flavor.appendix generation.components = "" := by
      rw [empty]
      cases settings.flavor <;> rfl
    rw [nothing, String.append_empty, render, render, sections, sections, empty]
    rfl
  · have ended := settings.flavor.ended_operations empty
    have settled := settled_perOperation settings.flavor.ended_operation empty
    have aggregate : operationsText generation.components settings.renderer .aggregate =
        settings.flavor.renderer.operations generation.components :=
      settings.operationsText_renderer generation.components .aggregate
    have single := settings.operationsText_renderer generation.components .perOperation
    have trimmed := trimEnd_settled settled
    rw [← single] at settled trimmed
    rw [render_eq empty (aggregate ▸ ended.settled), render_eq empty (trimmed.symm ▸ settled), trimmed,
      aggregate, single, ended.trimEnd_append, settings.flavor.operations_eq empty, intercalate_continued]

end TypedClient
