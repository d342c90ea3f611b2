import TypedClient.Notation.Json
import TypedClient.Proofs.Document.Routes
import TypedClient.Proofs.Generation.Run
import TypedClient.Proofs.Render.QueryKeys

/-!
The keys of the queries of one client. Operations of a document that was read differ in route or method,
so no two queries have a key in common.
-/
namespace TypedClient.Generation
open Notation QueryHooks

theorem queries_apart {naming : Naming} {document : Document} {generation : Generation}
    (reads : document.Reads) (made : (ofDocument naming document).outcome = .ok generation) :
    (generation.components.filter (·.verb.isQuery)).Pairwise fun first later =>
      first.path ≠ later.path := by
  have places : generation.components.map (fun descriptor => (descriptor.path, descriptor.verb)) =
      document.endpoints.map fun endpoint => (endpoint.route, endpoint.verb) :=
    map_components_eq made fun _ _ => rfl
  have apart : (document.endpoints.map fun endpoint => (endpoint.route, endpoint.verb)).Pairwise
      fun first later => first.1 = later.1 → first.2 ≠ later.2 :=
    List.pairwise_map.mpr reads.endpoints_apart
  rw [← places] at apart
  refine List.pairwise_filter.mpr ((List.pairwise_map.mp apart).imp ?_)
  intro first later apart query query' same
  have verb : first.verb = .get := eq_of_beq query
  have verb' : later.verb = .get := eq_of_beq query'
  exact apart same (verb.trans verb'.symm)

/-- The keys of any two queries start with different literals and are different for all values, and the
key of each query identifies its calls. -/
theorem queryKeys_separate {parsed : Parsed} {naming : Naming} {document : Document}
    {generation : Generation} {Value : Type} (quoted : String ↪ Value) (undefined : Value)
    (decoded : Document.ofParsed parsed = .ok document)
    (made : (ofDocument naming document).outcome = .ok generation) :
    (generation.components.filter (·.verb.isQuery)).Pairwise (fun first later =>
      (keyItems first).head? ≠ (keyItems later).head? ∧ ∀ values others,
        keyResult quoted undefined first values ≠ keyResult quoted undefined later others) ∧
    ∀ descriptor ∈ generation.components.filter (·.verb.isQuery),
      Identifies quoted undefined descriptor := by
  refine ⟨?_, fun descriptor _ => identifies quoted undefined descriptor⟩
  exact (queries_apart (Document.ofParsed_reads decoded) made).imp fun different =>
    ⟨keyItems_head_ne different, keyResult_ne different⟩

/-- Queries of a collection and of its items, and an operation that is no query. -/
def shelfText : String :=
  "\x7b\"paths\":\x7b\"/books\":\x7b\"get\":\x7b\x7d,\"post\":\x7b\x7d\x7d,\"/books/{id}\":" ++
    "\x7b\"get\":\x7b\x7d\x7d\x7d\x7d"

theorem shelfText_separate : ∃ document generation, Document.ofJson shelfText = .ok document ∧
    (ofDocument Naming.none document).outcome = .ok generation ∧
    (generation.components.filter (·.verb.isQuery)).map (·.path) = ["/books", "/books/{id}"] ∧
    (generation.components.filter (·.verb.isQuery)).Pairwise (fun first later =>
      (keyItems first).head? ≠ (keyItems later).head? ∧ ∀ values others,
        keyResult (.refl String) "undefined" first values ≠
          keyResult (.refl String) "undefined" later others) ∧
    ∀ descriptor ∈ generation.components.filter (·.verb.isQuery),
      Identifies (.refl String) "undefined" descriptor := by
  have queries : (Document.ofJson shelfText).toOption.bind (fun document =>
      (ofDocument Naming.none document).outcome.toOption.map fun generation =>
        (generation.components.filter (·.verb.isQuery)).map (·.path)) =
          some ["/books", "/books/{id}"] := by
    decide +kernel
  obtain ⟨document, decoded, queries⟩ := Option.bind_eq_some_iff.mp queries
  obtain ⟨generation, made, paths⟩ := Option.map_eq_some_iff.mp queries
  have decoded := ok_of_toOption decoded
  have made := ok_of_toOption made
  exact ⟨document, generation, decoded, made, paths, queryKeys_separate _ _ decoded made⟩

end TypedClient.Generation
