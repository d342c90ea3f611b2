import TypedClient.Proofs.DocComment.Block
import TypedClient.Proofs.Generation.Run
import TypedClient.Proofs.Operation.Owned
import TypedClient.Proofs.Synthesis.Definitions
import TypedClient.Script.Declarations

/-!
The documentation of a generation: definitions and descriptors carry blocks, and above the fields of an
interface stand blocks that are indented line by line.
-/
namespace TypedClient
open DocComment

/-! ### Fields of interfaces -/

namespace Definition

/-- Each line of the block behind two spaces. -/
def indented (block : String) : String :=
  String.join ((block.toList.splitOn '\n').map fun line => "  " ++ String.ofList line ++ "\n")

/-- The line of a field below what documents the field. -/
def fieldBelow (field : Field TypeExpr) (doc : Option String) : String :=
  (doc.map indented).getD "" ++ "  " ++ field.key ++ ": " ++ field.type.text ++ ";\n"

/-- As an interface the definition is written with a block above every field that is documented. -/
def FieldsDocumented (definition : Definition) (fields : List (Field TypeExpr))
    (index : Option TypeExpr) : Prop :=
  ∃ docs, List.Forall₂ (fun field => Documents field.doc.toList) fields docs ∧
    definition.text = (definition.doc.map (· ++ "\n")).getD "" ++
      ("export interface " ++ definition.name ++ " \x7b\n" ++
        String.join (List.zipWith fieldBelow fields docs) ++
        (index.map (indexLine fields)).getD "" ++ "\x7d\n")

theorem indentedDoc_eq (text : String) :
    indentedDoc text = ((ofTexts [text]).map indented).getD "" := by
  rw [indentedDoc]
  split
  · rename_i block made
    rw [made, lines_ofTexts made]
    rfl
  · rename_i blank
    rw [blank]
    rfl

theorem fieldText_eq (field : Field TypeExpr) :
    fieldText field = fieldBelow field (ofTexts field.doc.toList) := by
  unfold fieldText fieldBelow
  cases field.doc with
  | none => rfl
  | some text => rw [Option.map_some, Option.getD_some, indentedDoc_eq, Option.toList_some]

theorem fields_documented {definition : Definition} {fields : List (Field TypeExpr)}
    {index : Option TypeExpr} (object : definition.type = .object fields index) :
    definition.FieldsDocumented fields index := by
  have lines : List.zipWith fieldBelow fields (fields.map fun field => ofTexts field.doc.toList) =
      fields.map fieldText := by
    rw [List.zipWith_map_right, List.zipWith_self]
    exact List.map_congr_left fun field _ => (fieldText_eq field).symm
  refine ⟨fields.map fun field => ofTexts field.doc.toList, ?_, ?_⟩
  · rw [List.forall₂_map_right_iff, List.forall₂_same]
    exact fun field _ => ofTexts_documents _
  · rw [lines]
    unfold text
    rw [object]
    rfl

end Definition

/-! ### Definitions -/

theorem Component.Defines.documented {resolver : Resolver} {component : Component}
    {definition : Definition} (defines : Defines resolver component definition) :
    ∃ texts, definition.doc = ofTexts texts := by
  cases defines with
  | schema | response | requestBody => exact ⟨_, rfl⟩
  | responseAlias | requestBodyAlias => exact ⟨[], rfl⟩

namespace Generation

/-- Nothing but blocks documents the definitions, the descriptors and the fields of interfaces. -/
structure Documented (generation : Generation) : Prop where
  definitions : ∀ definition ∈ generation.types.definitions, ∀ doc ∈ definition.doc, IsBlock doc
  descriptors : ∀ descriptor ∈ generation.components, descriptor.doc ≠ "" → IsBlock descriptor.doc
  fields : ∀ definition ∈ generation.types.definitions, ∀ fields index,
    definition.type = .object fields index → definition.FieldsDocumented fields index

variable {naming : Naming} {document : Document}

theorem Run.definition_documented (run : Run naming document) {definition : Definition}
    (held : definition ∈ run.generation.types.definitions) :
    ∃ texts, definition.doc = ofTexts texts := by
  obtain ⟨entry, stands, rfl⟩ := List.mem_map.mp held
  rcases run.origin_of_mem_log (run.mem_log_of_mem_entries stands) with
    ⟨component, -, registers⟩ | ⟨endpoint, -, declared, parts, described, auxiliary⟩
  · exact (Component.definition_defines registers.definition).documented
  · obtain ⟨role, type, texts, rfl⟩ := described.auxiliary_makes auxiliary
    exact ⟨texts, rfl⟩

theorem Run.documented (run : Run naming document) : run.generation.Documented := by
  refine ⟨fun definition held doc carried => ?_, fun descriptor present filled => ?_,
    fun definition _ fields index object => Definition.fields_documented object⟩
  · obtain ⟨texts, made⟩ := run.definition_documented held
    exact isBlock_ofTexts (made.symm.trans carried)
  · obtain ⟨operation, synthesized, rfl⟩ := List.mem_map.mp present
    obtain ⟨endpoint, -, declared, parts, -, rfl⟩ := run.described_of_mem synthesized
    exact isBlock_getD filled

/-- Documentation does not get out of its comments. -/
theorem documentation_enclosed :
    (∀ texts, Documents texts (ofTexts texts)) ∧
      ∀ (naming : Naming) (document : Document) (generation : Generation),
        (ofDocument naming document).outcome = .ok generation → generation.Documented := by
  refine ⟨ofTexts_documents, fun naming document generation made => ?_⟩
  obtain ⟨run, rfl⟩ := ofDocument_run made
  exact run.documented

/-- A schema, a field and an operation whose texts hold end marks, and lines that are blank or end in a
carriage return. -/
def notesDocument : Document where
  paths := [("/notes", { operations := [("get", {
    summary := some "Lists */ notes", description := some "\r\n", deprecated := true
    responses := [("200", .inline {})] })] })]
  components := { schemas := [("Note", {
    type := some (.single "object"), description := some " \n**/ note\r\n"
    properties := some [("text", { type := some (.single "string"), description := some "*/\n" })] })] }

theorem notesDocument_documented : ∃ generation,
    (ofDocument Naming.none notesDocument).outcome = .ok generation ∧
      (∃ definition ∈ generation.types.definitions, definition.doc = some "/**\n * **\\/ note\n */") ∧
      generation.Documented := by
  obtain ⟨generation, made⟩ := exists_ok
    (show (ofDocument Naming.none notesDocument).outcome.isOk = true by decide +kernel)
  refine ⟨generation, made, ?_, documentation_enclosed.2 Naming.none notesDocument generation made⟩
  have shown : (ofDocument Naming.none notesDocument).outcome.toOption.map (fun generation =>
      generation.types.definitions.any (·.doc == some "/**\n * **\\/ note\n */")) = some true := by
    decide +kernel
  rw [made] at shown
  obtain ⟨definition, held, same⟩ := List.any_eq_true.mp (Option.some.inj shown)
  exact ⟨definition, held, eq_of_beq same⟩

end Generation
end TypedClient
