import TypedClient.Document.Text
import TypedClient.Proofs.Document.Entries
import TypedClient.Proofs.Outcome

/-!
What readings can give, whatever number of jumps is left to them. `Document.Reads` says where the parts
of a document that was read come from.
-/
namespace TypedClient
open Notation

section Readings

variable {α β : Type}

/-- With some number of jumps left the reading gives the value. -/
def Gives (read : Read α) (value : α) : Prop :=
  ∃ left rest, read left = some (value, rest)

theorem Gives.bind {read : Read α} {next : α → Read β} {value : β}
    (gives : Gives (read >>= next) value) : ∃ first, Gives read first ∧ Gives (next first) value := by
  obtain ⟨left, rest, made⟩ := gives
  obtain ⟨⟨first, between⟩, read, made⟩ := Option.bind_eq_some_iff.mp made
  exact ⟨first, ⟨left, between, read⟩, ⟨between, rest, made⟩⟩

theorem Gives.pure {given value : α} (gives : Gives (pure given) value) : value = given := by
  obtain ⟨left, rest, made⟩ := gives
  exact (Prod.mk.inj (Option.some.inj made)).1.symm

theorem not_gives_failure {value : α} : ¬Gives failure value := by
  rintro ⟨left, rest, made⟩
  cases made

theorem Gives.map {read : Read α} {f : α → β} {value : β} (gives : Gives (f <$> read) value) :
    ∃ given, Gives read given ∧ value = f given := by
  rw [map_eq_pure_bind] at gives
  obtain ⟨given, first, gives⟩ := gives.bind
  exact ⟨given, first, gives.pure⟩

theorem Gives.mapM {read : α → Read β} {inputs : List α} {outputs : List β}
    (gives : Gives (inputs.mapM read) outputs) {output : β} (member : output ∈ outputs) :
    ∃ input ∈ inputs, Gives (read input) output := by
  induction inputs generalizing outputs with
  | nil =>
    rw [List.mapM_nil] at gives
    obtain rfl := gives.pure
    cases member
  | cons input inputs ih =>
    rw [List.mapM_cons] at gives
    obtain ⟨first, head, gives⟩ := gives.bind
    obtain ⟨later, tail, gives⟩ := gives.bind
    obtain rfl := gives.pure
    rcases List.mem_cons.mp member with rfl | member
    · exact ⟨input, List.mem_cons_self, head⟩
    · obtain ⟨other, present, made⟩ := ih tail member
      exact ⟨other, List.mem_cons_of_mem _ present, made⟩

theorem Gives.orElse {first second : Read α} {value : α} (gives : Gives (first <|> second) value) :
    Gives first value ∨ Gives second value := by
  obtain ⟨left, rest, made⟩ := gives
  change ((first left).orElse fun _ => second left) = _ at made
  cases early : first left with
  | none =>
    rw [early] at made
    exact .inr ⟨left, rest, made⟩
  | some result =>
    rw [early] at made
    obtain rfl := Option.some.inj made
    exact .inl ⟨left, rest, early⟩

theorem Gives.optional {reading : Reading} {read : Node → Read α} {node : Option Node} {value : α}
    (gives : Gives (Slot.optional reading read node) (some value)) :
    ∃ node, Gives (read node) value := by
  cases node with
  | none => cases gives.pure
  | some node =>
    obtain ⟨absent, -, gives⟩ := gives.bind
    split at gives
    · cases gives.pure
    · obtain ⟨given, made, same⟩ := gives.map
      obtain rfl := Option.some.inj same
      exact ⟨node, made⟩

theorem Gives.defaulted {fallback : α} {read : Node → Read α} {slot : Option Node} {value : α}
    (gives : Gives (Slot.defaulted fallback read slot) value) :
    value = fallback ∨ ∃ node, Gives (read node) value := by
  cases slot with
  | none => exact .inl gives.pure
  | some node => exact .inr ⟨node, gives⟩

theorem Gives.mappingOf {reading : Reading} {read : Node → Read α} {node : Node}
    {entries : List (String × α)} (gives : Gives (mappingOf reading read node) entries) :
    Entries.Distinct entries := by
  obtain ⟨nodes, -, gives⟩ := gives.bind
  obtain ⟨pairs, -, gives⟩ := gives.bind
  obtain rfl := gives.pure
  exact Entries.distinct_ofList pairs

theorem Gives.mapping_mem {reading : Reading} {read : Node → Read α} {node : Node}
    {entries : List (String × α)} (gives : Gives (TypedClient.mappingOf reading read node) entries)
    {entry : String × α} (member : entry ∈ entries) : ∃ node, Gives (read node) entry.2 := by
  obtain ⟨nodes, -, gives⟩ := gives.bind
  obtain ⟨pairs, made, gives⟩ := gives.bind
  obtain rfl := gives.pure
  obtain ⟨pair, present, same⟩ := Entries.mem_ofList member
  obtain ⟨⟨name, value⟩, -, made⟩ := made.mapM present
  obtain ⟨given, read, rfl⟩ := Gives.map made
  exact ⟨value, same ▸ read⟩

theorem Gives.list_mem {reading : Reading} {read : Node → Read α} {node : Node} {items : List α}
    (gives : Gives (listOf reading read node) items) {item : α} (member : item ∈ items) :
    ∃ node, Gives (read node) item := by
  obtain ⟨nodes, -, gives⟩ := gives.bind
  obtain ⟨node, -, made⟩ := gives.mapM member
  exact ⟨node, made⟩

theorem Gives.defaulted_mem {reading : Reading} {read : Node → Read α} {slot : Option Node}
    {entries : List (String × α)}
    (gives : Gives (Slot.defaulted [] (TypedClient.mappingOf reading read) slot) entries)
    {entry : String × α} (member : entry ∈ entries) : ∃ node, Gives (read node) entry.2 := by
  rcases gives.defaulted with rfl | ⟨node, gives⟩
  · cases member
  · exact gives.mapping_mem member

theorem Gives.referable {reading : Reading} {read : Node → Read α} {node : Node} {value : α}
    (gives : Gives (Referable.read read reading node) (.inline value)) :
    ∃ node, Gives (read node) value := by
  obtain ⟨-, -, gives⟩ := gives.bind
  rcases gives.orElse with reference | inline
  · obtain ⟨path, -, same⟩ := reference.map
    cases same
  · obtain ⟨given, made, same⟩ := inline.map
    obtain rfl := Referable.inline.inj same
    exact ⟨node, made⟩

def Yields (read : Located α) (value : α) : Prop :=
  ∃ left rest, read left = .ok (value, rest)

theorem Yields.bind {read : Located α} {next : α → Located β} {value : β}
    (yields : Yields (read >>= next) value) :
    ∃ first, Yields read first ∧ Yields (next first) value := by
  obtain ⟨left, rest, made⟩ := yields
  obtain ⟨⟨first, between⟩, given, made⟩ := bind_ok made
  exact ⟨first, ⟨left, between, given⟩, ⟨between, rest, made⟩⟩

theorem Yields.pure {given value : α} (yields : Yields (pure given) value) : value = given := by
  obtain ⟨left, rest, made⟩ := yields
  exact (Prod.mk.inj (Except.ok.inj made)).1.symm

theorem not_yields_throw {fault : Malformed} {value : α} : ¬Yields (throw fault) value := by
  rintro ⟨left, rest, made⟩
  cases made

theorem Yields.of_unless {fault : Malformed} {read : Read α} {value : α}
    (yields : Yields (fault.unless read) value) : Gives read value := by
  obtain ⟨left, rest, made⟩ := yields
  unfold Malformed.unless at made
  split at made
  · rename_i result given
    obtain rfl := Except.ok.inj made
    exact ⟨left, rest, given⟩
  · cases made

end Readings

/-! ### Documents -/

namespace Document

variable {reading : Reading}

/-- Path items that were read, under routes that are all distinct. -/
structure PathsRead (paths : List (String × PathItem)) : Prop where
  routes : Entries.Distinct paths
  items : ∀ entry ∈ paths, ∃ reading node, Yields (PathItem.read reading node) entry.2

/-- The path items were read, and so were the components, unless there are none. -/
structure Reads (document : Document) : Prop where
  paths : PathsRead document.paths
  components : document.components = {} ∨
    ∃ reading node, Gives (Components.read reading node) document.components

theorem pathsRead_nil : PathsRead [] :=
  ⟨List.nodup_nil, fun _ none => nomatch none⟩

theorem readPathEntries_read {entries : List (Node × Node)} {before paths : List (String × PathItem)}
    (read : PathsRead before) (yields : Yields (readPathEntries reading before entries) paths) :
    PathsRead paths := by
  induction entries generalizing before with
  | nil =>
    obtain rfl := yields.pure
    exact read
  | cons entry rest ih =>
    obtain ⟨route, -, yields⟩ := yields.bind
    obtain ⟨item, given, yields⟩ := yields.bind
    refine ih ⟨read.routes.put route item, fun entry member => ?_⟩ yields
    rcases Entries.mem_alter member with old | ⟨held, changed⟩
    · exact read.items entry old
    · exact ⟨reading, _, changed ▸ given⟩

theorem readPaths_read {paths : List (String × PathItem)} :
    ∀ node, Yields (readPaths reading node) paths → PathsRead paths
  | .map entries, yields => readPathEntries_read pathsRead_nil yields
  | .tagged content, yields => readPaths_read content yields
  | .shared content, yields => by
    obtain ⟨-, -, yields⟩ := yields.bind
    exact readPaths_read content yields
  | .scalar _, yields | .list _ _, yields | .broken, yields => by
    obtain ⟨-, -, yields⟩ := yields.bind
    obtain rfl := yields.pure
    exact pathsRead_nil

theorem reads_empty : Reads {} :=
  ⟨pathsRead_nil, .inl rfl⟩

theorem readEntries_reads {entries : List (Node × Node)} {seen : List Nat} {before document : Document}
    (reads : before.Reads) (yields : Yields (readEntries reading seen before entries) document) :
    document.Reads := by
  induction entries generalizing seen before with
  | nil =>
    obtain rfl := yields.pure
    exact reads
  | cons entry rest ih =>
    obtain ⟨index, -, yields⟩ := yields.bind
    split at yields
    · split at yields
      · exact ih reads yields
      · exact (not_yields_throw yields).elim
    split at yields
    · exact (not_yields_throw yields).elim
    split at yields
    · obtain ⟨paths, given, yields⟩ := yields.bind
      have next : Reads { before with paths } := ⟨readPaths_read _ given, reads.components⟩
      exact ih next yields
    · obtain ⟨components, given, yields⟩ := yields.bind
      have next : Reads { before with components } :=
        ⟨reads.paths, .inr ⟨reading, _, given.of_unless⟩⟩
      exact ih next yields

theorem readItems_reads {items : List Node} {document : Document}
    (yields : Yields (readItems reading items) document) : document.Reads := by
  match items with
  | [] =>
    obtain rfl := yields.pure
    exact reads_empty
  | [paths] =>
    obtain ⟨paths, given, yields⟩ := yields.bind
    obtain rfl := yields.pure
    exact ⟨readPaths_read _ given, .inl rfl⟩
  | paths :: components :: rest =>
    obtain ⟨paths, pathsRead, yields⟩ := yields.bind
    obtain ⟨components, given, yields⟩ := yields.bind
    split at yields
    · obtain rfl := yields.pure
      exact ⟨readPaths_read _ pathsRead, .inr ⟨reading, _, given.of_unless⟩⟩
    · exact (not_yields_throw yields).elim

theorem read_reads {document : Document} :
    ∀ node, Yields (read reading node) document → document.Reads
  | .map _, yields => readEntries_reads reads_empty yields
  | .list positional _, yields => by
    cases positional with
    | true => exact readItems_reads yields
    | false => exact (not_yields_throw yields).elim
  | .scalar leaf, yields => by
    rw [read] at yields
    split at yields
    · obtain rfl := yields.pure
      exact reads_empty
    · exact (not_yields_throw yields).elim
  | .tagged content, yields => read_reads content yields
  | .shared content, yields => by
    obtain ⟨-, -, yields⟩ := yields.bind
    exact read_reads content yields
  | .broken, yields => (not_yields_throw yields).elim

theorem ofParsed_reads {parsed : Parsed} {document : Document}
    (made : ofParsed parsed = .ok document) : document.Reads := by
  obtain ⟨given, run, made⟩ := bind_ok made
  split at made
  · obtain rfl := Except.ok.inj made
    obtain ⟨⟨_, rest⟩, read, same⟩ := bind_ok run
    obtain rfl := Except.ok.inj same
    exact read_reads parsed.root ⟨parsed.jumps, rest, read⟩
  · cases made

end Document
end TypedClient
