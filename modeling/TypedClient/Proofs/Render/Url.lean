import TypedClient.Proofs.Identifier.Letters
import TypedClient.Proofs.Operation.Placeholders
import TypedClient.Proofs.Render.FreeName
import TypedClient.Proofs.Render.TemplateLiteral

/-!
The address of a request denotes the declared route: its template literal reads as the route with each
placeholder replaced by the identifier of its path parameter, and a query string where the operation
has query parameters.
-/
namespace TypedClient
open TemplateLiteral Endpoint

namespace Route

/-- The pieces of a template with the parameter for each placeholder, in order. -/
inductive Filled : List Part → List PathParam → List Piece → Prop where
  | done : Filled [] [] []
  | static {text : String} {rest : List Part} {params : List PathParam} {pieces : List Piece}
      (later : Filled rest params pieces) :
      Filled (.static text :: rest) params (text.toList.map .char ++ pieces)
  | placeholder {param : PathParam} {rest : List Part} {params : List PathParam}
      {pieces : List Piece} (later : Filled rest params pieces) :
      Filled (.placeholder param.name :: rest) (param :: params) (.value param.identifier :: pieces)

section Filled

variable {template : List Part} {params : List PathParam} {pieces : List Piece} {rest : List Char}

theorem filled_of_names (named : params.map (·.name) = placeholders template) :
    ∃ pieces, Filled template params pieces := by
  induction template generalizing params with
  | nil =>
    obtain rfl := List.map_eq_nil_iff.mp named
    exact ⟨_, .done⟩
  | cons part template ih =>
    cases part with
    | static text =>
      obtain ⟨pieces, filled⟩ := ih named
      exact ⟨_, .static filled⟩
    | placeholder name =>
      obtain ⟨param, params, rfl, rfl, later⟩ := List.map_eq_cons_iff.mp named
      obtain ⟨pieces, filled⟩ := ih later
      exact ⟨_, .placeholder filled⟩

theorem escaped_interpolation {identifier : String} (worded : Identifier.Worded identifier) :
    escaped ("$\x7b" ++ identifier ++ "\x7d").toList =
      '$' :: '\x7b' :: (identifier.toList ++ ['\x7d']) := by
  rw [String.toList_append, String.toList_append, escaped_append, escaped_append,
    escaped_of_unquoted worded.backtick]
  rfl

theorem head?_interpolate (filled : Filled template params pieces)
    (worded : ∀ param ∈ params, Identifier.Worded param.identifier)
    (dynamic : ∀ text, template.head? ≠ some (.static text)) (after : rest.head? ≠ some '\x7b') :
    (escaped (interpolate template (params.map (·.identifier))).toList ++ rest).head? ≠
      some '\x7b' := by
  cases filled with
  | done => exact after
  | static => exact (dynamic _ rfl).elim
  | placeholder later =>
    rw [List.map_cons, interpolate, String.toList_append, escaped_append,
      escaped_interpolation (worded _ List.mem_cons_self)]
    simp

theorem readText_interpolate (filled : Filled template params pieces) (apart : Apart template)
    (unescaped : ∀ text, .static text ∈ template → Unescaped text.toList)
    (worded : ∀ param ∈ params, Identifier.Worded param.identifier) (after : rest.head? ≠ some '\x7b') :
    readText (escaped (interpolate template (params.map (·.identifier))).toList ++ rest) =
      (readText rest).map (pieces ++ ·) := by
  induction filled with
  | done => simp [interpolate, escaped]
  | @static text template params pieces later ih =>
    have others := ih apart.tail (fun other member => unescaped other (List.mem_cons_of_mem _ member))
      worded
    rw [interpolate, String.toList_append, escaped_append, List.append_assoc,
      readText_escaped (unescaped text List.mem_cons_self)
        (head?_interpolate later worded apart.dynamic after),
      others, Option.map_map]
    simp only [Function.comp_def, List.append_assoc]
  | @placeholder param template params pieces later ih =>
    rw [List.forall_mem_cons] at worded
    have others := ih apart.tail (fun text member => unescaped text (List.mem_cons_of_mem _ member))
      worded.2
    rw [List.map_cons, interpolate, String.toList_append, escaped_append,
      escaped_interpolation worded.1]
    simp only [List.cons_append, List.append_assoc, List.nil_append]
    rw [readText_value worded.1.brace, others, Option.map_map, String.ofList_toList]
    rfl

end Filled
end Route

/-! ### The parts of an address -/

namespace Fetch

def trailingText (descriptor : Descriptor) : String :=
  (descriptor.trailingId.map fun id => "$\x7b" ++ id.identifier ++ "\x7d").getD ""

def queryText (descriptor : Descriptor) : String :=
  if descriptor.queryParamsType.isSome then
    "$\x7btoQueryString(" ++ freeName descriptor "params" ++ ")\x7d"
  else ""

/-- The query string that ends an address, if the operation has query parameters. -/
def queryPieces (descriptor : Descriptor) (asked : Bool) : List Piece :=
  if asked then [.value ("toQueryString(" ++ freeName descriptor "params" ++ ")")] else []

end Fetch

namespace Endpoint
open Fetch

variable {resolver : Resolver} {name : String} {endpoint : Endpoint} {declared : List Parameter}
  {parts : OperationParts}

theorem name_of_matching {placeholder : String} {parameter : Parameter}
    (found : matching placeholder declared = some parameter) :
    parameter.name = placeholder ∨
      Identifier.snake parameter.name = Identifier.snake placeholder := by
  rcases Option.or_eq_some_iff.mp found with named | ⟨-, words⟩
  · have same := List.find?_some named
    exact .inl (eq_of_beq same)
  · have same := List.find?_some words
    exact .inr (eq_of_beq same)

/-- A matched parameter has the words of its placeholder, and so an identifier over the same letters. -/
theorem PlaceholderTyped.worded {placeholder : String} {param : PathParam}
    (typed : PlaceholderTyped resolver declared placeholder param)
    (named : ∀ c ∈ placeholder.toList, Identifier.isNameChar c = true) :
    Identifier.Worded param.identifier := by
  cases typed with
  | unmatched => exact Identifier.worded_ofName named
  | matched found =>
    refine Identifier.worded_ofName ?_
    rcases name_of_matching found with same | words
    · exact same ▸ named
    · exact Identifier.isNameChar_of_snake words named

theorem Described.worded (described : endpoint.Described resolver name declared parts)
    (named : ∀ placeholder ∈ placeholders (Route.parse endpoint.route),
      ∀ c ∈ placeholder.toList, Identifier.isNameChar c = true) :
    ∀ param ∈ parts.path, Identifier.Worded param.identifier := by
  intro param present
  obtain ⟨placeholder, member, typed⟩ := InStep.left_of_right described.path present
  exact typed.worded (named placeholder member)

/-- Cutting the trailing placeholder and appending its identifier again leaves the route as it was. -/
theorem route_assemble (described : endpoint.Described resolver name declared parts) :
    (endpoint.assemble name parts).descriptor.route ++
        trailingText (endpoint.assemble name parts).descriptor =
      Route.interpolate (Route.parse endpoint.route) (parts.path.map (·.identifier)) := by
  cases cut : endpoint.cutsTrailingId with
  | false => simp [assemble, trailingText, cut]
  | true =>
    obtain ⟨front, kept, last, ends, path, names⟩ := described.cut cut
    have each : (kept.map (·.identifier)).length = (placeholders front).length := by
      rw [← names, List.length_map, List.length_map]
    have appended := Route.interpolate_append front last.name last.identifier each
    simp [assemble, trailingText, cut, ends, path, appended, String.append_assoc]

theorem queryParamsType_assemble (described : endpoint.Described resolver name declared parts) :
    (endpoint.assemble name parts).descriptor.queryParamsType.isSome =
      declared.any (·.location == .query) := by
  have query := described.query
  cases fields : parts.query with
  | nil =>
    rw [fields, List.forall₂_nil_right_iff, List.filter_eq_nil_iff] at query
    simpa [assemble, queryDefinition, fields] using query
  | cons field rest =>
    rw [fields, List.forall₂_cons_right_iff] at query
    obtain ⟨parameter, others, _, _, located⟩ := query
    have present : parameter ∈ declared.filter (·.location == .query) :=
      located ▸ List.mem_cons_self
    have asked := List.any_eq_true.mpr ⟨parameter, List.mem_filter.mp present⟩
    simp [assemble, queryDefinition, fields, asked]

end Endpoint

namespace Fetch

theorem toList_urlExpression (descriptor : Descriptor) :
    (urlExpression descriptor).toList =
      '\x60' :: (escaped descriptor.route.toList ++ (trailingText descriptor).toList ++
        (queryText descriptor).toList ++ ['\x60']) := by
  simp only [urlExpression, String.toList_append, toList_escapeTemplate]
  rfl

theorem escaped_trailingText {descriptor : Descriptor}
    (worded : ∀ param ∈ descriptor.trailingId, Identifier.Worded param.identifier) :
    escaped (trailingText descriptor).toList = (trailingText descriptor).toList := by
  unfold trailingText
  cases trailing : descriptor.trailingId with
  | none => rfl
  | some param =>
    rw [Option.map_some, Option.getD_some, Route.escaped_interpolation (worded param trailing)]
    simp

/-- The literal does not show whether the last identifier was cut off. -/
theorem toList_urlExpression_assemble {resolver : Resolver} {name : String} {endpoint : Endpoint}
    {declared : List Parameter} {parts : OperationParts}
    (described : endpoint.Described resolver name declared parts)
    (worded : ∀ param ∈ parts.path, Identifier.Worded param.identifier) :
    (urlExpression (endpoint.assemble name parts).descriptor).toList =
      '\x60' :: (escaped (Route.interpolate (Route.parse endpoint.route)
        (parts.path.map (·.identifier))).toList ++
          ((queryText (endpoint.assemble name parts).descriptor).toList ++ ['\x60'])) := by
  have trailing : ∀ param ∈ (endpoint.assemble name parts).descriptor.trailingId,
      Identifier.Worded param.identifier := by
    intro param last
    exact worded param (mem_allPathParams (List.mem_append_right _ (Option.mem_toList.mpr last)))
  rw [toList_urlExpression, ← escaped_trailingText trailing, ← escaped_append,
    ← String.toList_append, route_assemble described, List.append_assoc]

theorem head?_queryText (descriptor : Descriptor) :
    ((queryText descriptor).toList ++ ['\x60']).head? ≠ some '\x7b' := by
  unfold queryText
  split <;> simp

theorem readText_queryText (descriptor : Descriptor) :
    readText ((queryText descriptor).toList ++ ['\x60']) =
      some (queryPieces descriptor descriptor.queryParamsType.isSome) := by
  have ends : readText ['\x60'] = some [] := by rw [readText]; rfl
  unfold queryText queryPieces
  split
  · have closed : '\x7d' ∉
        ("toQueryString(" ++ freeName descriptor "params" ++ ")").toList := by
      have name : '\x7d' ∉ (freeName descriptor "params").toList :=
        not_mem_freeName descriptor (by decide) (by decide)
      simpa using name
    have text : ("$\x7btoQueryString(" ++ freeName descriptor "params" ++ ")\x7d").toList ++ ['\x60'] =
        '$' :: '\x7b' :: (("toQueryString(" ++ freeName descriptor "params" ++ ")").toList ++
          '\x7d' :: ['\x60']) := by
      simp
    rw [text, readText_value closed, ends, String.ofList_toList]
    rfl
  · exact ends

/-- The literal of the address reads as the declared route, which its parts spell out, with the
identifiers of the path parameters in place of the placeholders, and then the query string. -/
theorem read_urlExpression {resolver : Resolver} {naming : Naming} {endpoint : Endpoint}
    {operation : SynthesizedOperation}
    (made : (endpoint.synthesize resolver naming).outcome = .ok operation)
    (named : ∀ name ∈ placeholders (Route.parse endpoint.route),
      ∀ c ∈ name.toList, Identifier.isNameChar c = true)
    (unescaped : ∀ text, .static text ∈ Route.parse endpoint.route → Unescaped text.toList) :
    ∃ declared pieces, endpoint.parameters resolver = .ok declared ∧
      (Route.parse endpoint.route).flatMap Route.Part.written = endpoint.route.toList ∧
      Route.Filled (Route.parse endpoint.route) operation.descriptor.allPathParams pieces ∧
      readLiteral (urlExpression operation.descriptor) = some (pieces ++
        queryPieces operation.descriptor (declared.any (·.location == .query))) := by
  obtain ⟨declared, parts, described, rfl⟩ := synthesize_described made
  obtain ⟨pieces, filled⟩ := Route.filled_of_names described.names
  refine ⟨declared, pieces, described.merged, Route.written_parse endpoint.route,
    (allPathParams_assemble described).symm ▸ filled, ?_⟩
  have worded := described.worded named
  rw [readLiteral_eq (toList_urlExpression_assemble described worded),
    Route.readText_interpolate filled (Route.apart_parse _) unescaped worded (head?_queryText _),
    readText_queryText, queryParamsType_assemble described, Option.map_some]

/-- Takes a book off a shelf, with a note for the reader in the query. -/
def returnBook : Endpoint where
  route := "/shelves/{shelf-id}/`books`/{bookId}"
  verb := .delete
  operation := {
    parameters := [
      .inline { name := "book_id", location := .path, required := true },
      .inline { name := "note", location := .query }] }

theorem returnBook_url : ∃ operation declared pieces,
    (returnBook.synthesize ⟨{}, []⟩ Naming.none).outcome = .ok operation ∧
      returnBook.parameters ⟨{}, []⟩ = .ok declared ∧
      (Route.parse returnBook.route).flatMap Route.Part.written = returnBook.route.toList ∧
      Route.Filled (Route.parse returnBook.route) operation.descriptor.allPathParams pieces ∧
      readLiteral (urlExpression operation.descriptor) = some (pieces ++
        queryPieces operation.descriptor (declared.any (·.location == .query))) := by
  obtain ⟨operation, made⟩ := exists_ok
    (show (returnBook.synthesize ⟨{}, []⟩ Naming.none).outcome.isOk = true by decide +kernel)
  have template : Route.parse returnBook.route = [.static "/shelves/", .placeholder "shelf-id",
      .static "/`books`/", .placeholder "bookId"] := by
    decide +kernel
  have named : ∀ name ∈ placeholders (Route.parse returnBook.route),
      ∀ c ∈ name.toList, Identifier.isNameChar c = true := by
    have letters : (placeholders (Route.parse returnBook.route)).all
        (fun name => name.toList.all Identifier.isNameChar) = true := by
      decide +kernel
    exact fun name member => List.all_eq_true.mp (List.all_eq_true.mp letters name member)
  have unescaped : ∀ text, .static text ∈ Route.parse returnBook.route →
      Unescaped text.toList := by
    intro text member
    rw [template] at member
    have cases : text = "/shelves/" ∨ text = "/`books`/" := by simpa using member
    rcases cases with rfl | rfl <;> exact ⟨by decide +kernel, by decide +kernel⟩
  obtain ⟨declared, pieces, denoted⟩ := read_urlExpression made named unescaped
  exact ⟨operation, declared, pieces, made, denoted⟩

end Fetch
end TypedClient
