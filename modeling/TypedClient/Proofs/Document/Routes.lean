import TypedClient.Generation
import TypedClient.Proofs.Document.Readings

/-!
Operations of a document that was read, told apart by route and method. The entries of a path item have
distinct keys when they are read, and the routes of path items are distinct themselves.
-/
namespace TypedClient
open Notation

/-- Operations are read in the order of their entries, so the keys of those read and those to come stay
distinct. -/
theorem PathItem.ofEntries_distinct {entries : List (String × Node)} {before item : PathItem}
    (distinct : (before.operations.map (·.1) ++ entries.map (·.1)).Nodup)
    (yields : Yields (ofEntries before entries) item) : Entries.Distinct item.operations := by
  induction entries generalizing before with
  | nil =>
    obtain rfl := yields.pure
    rwa [List.map_nil, List.append_nil] at distinct
  | cons entry rest ih =>
    obtain ⟨key, value⟩ := entry
    have passed : (before.operations.map (·.1) ++ rest.map (·.1)).Nodup :=
      distinct.sublist ((List.sublist_cons_self _ _).append_left _)
    rw [ofEntries] at yields
    split at yields
    · obtain ⟨parameters, -, yields⟩ := yields.bind
      refine ih ?_ yields
      exact passed
    split at yields
    · obtain ⟨operation, -, yields⟩ := yields.bind
      refine ih ?_ yields
      rw [List.map_append, List.append_assoc]
      exact distinct
    · exact ih passed yields

theorem PathItem.read_distinct {reading : Reading} {node : Node} {item : PathItem}
    (yields : Yields (read reading node) item) : Entries.Distinct item.operations := by
  obtain ⟨entries, -, yields⟩ := yields.bind
  refine ofEntries_distinct ?_ yields
  exact Entries.distinct_ofList entries

theorem Verb.ofKey?_inj {key other : String} {verb : Verb} (first : ofKey? key = some verb)
    (later : ofKey? other = some verb) : key = other := by
  unfold ofKey? at first later
  grind

/-- No two operations of a document that was read have both their route and their method in common. -/
theorem Document.Reads.endpoints_apart {document : Document} (reads : document.Reads) :
    document.endpoints.Pairwise fun first later =>
      first.route = later.route → first.verb ≠ later.verb := by
  refine List.pairwise_flatMap.mpr ⟨fun ⟨route, item⟩ member => ?_, ?_⟩
  · obtain ⟨reading, node, yields⟩ := reads.paths.items _ member
    have keys := List.pairwise_map.mp (PathItem.read_distinct yields)
    refine List.pairwise_filterMap.mpr (keys.imp fun different first given later given' _ same => ?_)
    obtain ⟨verb, known, rfl⟩ := Option.map_eq_some_iff.mp given
    obtain ⟨other, known', rfl⟩ := Option.map_eq_some_iff.mp given'
    obtain rfl : verb = other := same
    exact different (Verb.ofKey?_inj known known')
  · refine (List.pairwise_map.mp reads.paths.routes).imp ?_
    intro entry other different first member later member'
    obtain ⟨⟨key, operation⟩, -, given⟩ := List.mem_filterMap.mp member
    obtain ⟨⟨key', operation'⟩, -, given'⟩ := List.mem_filterMap.mp member'
    obtain ⟨-, -, rfl⟩ := Option.map_eq_some_iff.mp given
    obtain ⟨-, -, rfl⟩ := Option.map_eq_some_iff.mp given'
    exact fun same => absurd same different

end TypedClient
