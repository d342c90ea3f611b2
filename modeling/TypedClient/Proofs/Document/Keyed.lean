import TypedClient.Proofs.Document.Readings
import TypedClient.Proofs.Schema.Keyed

/-!
Keys of documents. A mapping keeps one entry for each key, so that in every document that was read the
components have distinct keys, and no schema declares a property twice, wherever it stands: among the
components, or in a parameter, a body or a response of an operation.
-/
namespace TypedClient
open Notation

/-! ### Components -/

structure Components.Keyed (components : Components) : Prop where
  schemas : Entries.Distinct components.schemas
  responses : Entries.Distinct components.responses
  requestBodies : Entries.Distinct components.requestBodies

theorem Components.keyed_empty : Keyed {} :=
  ⟨List.nodup_nil, List.nodup_nil, List.nodup_nil⟩

theorem Gives.distinct {α : Type} {reading : Reading} {read : Node → Read α} {slot : Option Node}
    {entries : List (String × α)}
    (gives : Gives (Slot.defaulted [] (TypedClient.mappingOf reading read) slot) entries) :
    Entries.Distinct entries := by
  rcases gives.defaulted with rfl | ⟨node, gives⟩
  · exact List.nodup_nil
  · exact gives.mappingOf

/-- Each section of the components was read from a slot of its own. -/
structure Components.SectionsRead (reading : Reading) (components : Components) : Prop where
  schemas : ∃ slot, Gives (Slot.defaulted [] (mappingOf reading (Schema.read · reading)) slot)
    components.schemas
  responses : ∃ slot, Gives (Slot.defaulted []
    (mappingOf reading (Referable.read Response.read reading)) slot) components.responses
  parameters : ∃ slot, Gives (Slot.defaulted []
    (mappingOf reading (Referable.read Parameter.read reading)) slot) components.parameters
  requestBodies : ∃ slot, Gives (Slot.defaulted []
    (mappingOf reading (Referable.read RequestBody.read reading)) slot) components.requestBodies

theorem Components.sectionsRead_of_read {reading : Reading} {node : Node} {components : Components}
    (gives : Gives (Components.read reading node) components) : components.SectionsRead reading := by
  obtain ⟨slots, -, gives⟩ := gives.bind
  split at gives
  · obtain ⟨schemas, schemasRead, gives⟩ := gives.bind
    obtain ⟨responses, responsesRead, gives⟩ := gives.bind
    obtain ⟨parameters, parametersRead, gives⟩ := gives.bind
    obtain ⟨requestBodies, bodiesRead, gives⟩ := gives.bind
    obtain rfl := gives.pure
    exact ⟨⟨_, schemasRead⟩, ⟨_, responsesRead⟩, ⟨_, parametersRead⟩, ⟨_, bodiesRead⟩⟩
  · exact (not_gives_failure gives).elim

theorem Components.read_keyed {reading : Reading} {node : Node} {components : Components}
    (gives : Gives (Components.read reading node) components) : components.Keyed := by
  obtain ⟨⟨_, schemas⟩, ⟨_, responses⟩, -, ⟨_, requestBodies⟩⟩ := sectionsRead_of_read gives
  exact ⟨schemas.distinct, responses.distinct, requestBodies.distinct⟩

/-- The components of a document that was read have distinct keys. -/
theorem Document.ofParsed_keyed {parsed : Parsed} {document : Document}
    (made : ofParsed parsed = .ok document) : document.components.Keyed := by
  rcases (ofParsed_reads made).components with none | ⟨reading, node, gives⟩
  · exact none ▸ Components.keyed_empty
  · exact Components.read_keyed gives

/-! ### Schemas -/

namespace Schema

/-- What `Keyed` asks of the members of a composition. -/
def MembersKeyed (nodes : Option (List Schema)) : Prop :=
  ∀ given, nodes = some given → ∀ node ∈ given, node.Keyed

/-- What `Keyed` asks of each keyword that holds schemas. -/
structure KeyedParts (schema : Schema) : Prop where
  properties : ∀ given, schema.properties = some given →
    Entries.Distinct given ∧ ∀ entry ∈ given, entry.2.Keyed
  items : ∀ node, schema.items = some node → node.Keyed
  allOf : MembersKeyed schema.allOf
  oneOf : MembersKeyed schema.oneOf
  anyOf : MembersKeyed schema.anyOf
  additional : ∀ node, schema.additional = some (.values node) → node.Keyed

theorem MembersKeyed.mem {nodes : Option (List Schema)} (keyed : MembersKeyed nodes) {node : Schema}
    (member : node ∈ nodes.getD []) : node.Keyed := by
  cases nodes with
  | none => cases member
  | some given => exact keyed given rfl node member

theorem KeyedParts.keyed {schema : Schema} (parts : schema.KeyedParts) : schema.Keyed := by
  refine keyed_iff.mpr ⟨?_, fun child member => ?_⟩
  · cases given : schema.properties with
    | none => exact List.nodup_nil
    | some properties => exact (parts.properties properties given).1
  · simp only [children, List.mem_append] at member
    rcases member with ((((property | item) | all) | one) | any) | value
    · obtain ⟨entry, present, rfl⟩ := List.mem_map.mp property
      cases given : schema.properties with
      | none => simp [given] at present
      | some properties =>
        exact (parts.properties properties given).2 entry (by simpa [given] using present)
    · exact parts.items child (Option.mem_toList.mp item)
    · exact parts.allOf.mem all
    · exact parts.oneOf.mem one
    · exact parts.anyOf.mem any
    · obtain ⟨additional, given, inside⟩ := Option.bind_eq_some_iff.mp (Option.mem_toList.mp value)
      cases additional with
      | flag allowed => cases inside
      | values node =>
        obtain rfl := Option.some.inj inside
        exact parts.additional node given

theorem keyedParts_empty : KeyedParts {} :=
  ⟨fun _ none => (nomatch none), fun _ none => (nomatch none), fun _ none => (nomatch none),
    fun _ none => (nomatch none), fun _ none => (nomatch none), fun _ none => nomatch none⟩

end Schema

structure SchemaReadings.Keyed (readings : SchemaReadings) : Prop where
  schema : ∀ reading node, Gives (readings.schema reading) node → node.Keyed
  list : ∀ reading nodes, Gives (readings.list reading) nodes → ∀ node ∈ nodes, node.Keyed
  mapping : ∀ reading entries, Gives (readings.mapping reading) entries →
    Entries.Distinct entries ∧ ∀ entry ∈ entries, entry.2.Keyed

theorem Gives.optional_eq {α : Type} {reading : Reading} {read : Read α} {node : Node}
    {given : Option α}
    (gives : Gives (Slot.optional reading (fun _ => read) (some node)) given) {value : α}
    (present : given = some value) : Gives read value := by
  subst present
  obtain ⟨node, gives⟩ := gives.optional
  exact gives

theorem Keyword.read_keyed {reading : Reading} {node : Node} {readings : SchemaReadings}
    {draft schema : Schema} {keyword : Keyword} (keyed : readings.Keyed) (parts : draft.KeyedParts)
    (gives : Gives (Keyword.read reading node readings draft keyword) schema) : schema.KeyedParts := by
  cases keyword with
  | type | ref | format | description | required | enum | discriminator | nullable =>
    obtain ⟨value, -, gives⟩ := gives.bind
    obtain rfl := gives.pure
    exact { parts with }
  | properties =>
    obtain ⟨value, read, gives⟩ := gives.bind
    obtain rfl := gives.pure
    refine { parts with properties := fun given present => ?_ }
    exact keyed.mapping reading given (read.optional_eq present)
  | items =>
    obtain ⟨value, read, gives⟩ := gives.bind
    obtain rfl := gives.pure
    refine { parts with items := fun given present => ?_ }
    exact keyed.schema reading given (read.optional_eq present)
  | allOf =>
    obtain ⟨value, read, gives⟩ := gives.bind
    obtain rfl := gives.pure
    refine { parts with allOf := fun given present => ?_ }
    exact keyed.list reading given (read.optional_eq present)
  | oneOf =>
    obtain ⟨value, read, gives⟩ := gives.bind
    obtain rfl := gives.pure
    refine { parts with oneOf := fun given present => ?_ }
    exact keyed.list reading given (read.optional_eq present)
  | anyOf =>
    obtain ⟨value, read, gives⟩ := gives.bind
    obtain rfl := gives.pure
    refine { parts with anyOf := fun given present => ?_ }
    exact keyed.list reading given (read.optional_eq present)
  | additional =>
    obtain ⟨value, read, gives⟩ := gives.bind
    obtain rfl := gives.pure
    refine { parts with additional := fun given present => ?_ }
    subst present
    obtain ⟨node, made⟩ := read.optional
    obtain ⟨-, -, made⟩ := made.bind
    split at made
    · cases made.pure
    · obtain ⟨values, made, same⟩ := made.map
      obtain rfl := Additional.values.inj same
      exact keyed.schema _ given made

namespace Schema

section Refused

variable (reading : Reading)

theorem readList_map (entries : List (Node × Node)) : readList (.map entries) reading = failure := by
  rw [readList]
  all_goals simp

theorem readList_broken : readList .broken reading = failure := by
  rw [readList]
  all_goals simp

theorem readMapping_list (positional : Bool) (items : List Node) :
    readMapping (.list positional items) reading = failure := by
  rw [readMapping]
  all_goals simp

theorem readMapping_broken : readMapping .broken reading = failure := by
  rw [readMapping]
  all_goals simp

end Refused

mutual

theorem read_keyed : ∀ (node : Node) (reading : Reading) (schema : Schema),
    Gives (read node reading) schema → schema.KeyedParts
  | .map entries, reading, schema, gives => by
    rw [read] at gives
    exact readEntries_keyed entries reading [] _ schema keyedParts_empty gives
  | .list positional items, reading, schema, gives => by
    rw [read] at gives
    split at gives
    · exact readFields_keyed items Keyword.all reading _ schema keyedParts_empty gives
    · exact (not_gives_failure gives).elim
  | .scalar leaf, reading, schema, gives => by
    rw [read] at gives
    split at gives
    · obtain rfl := gives.pure
      exact keyedParts_empty
    · exact (not_gives_failure gives).elim
  | .tagged content, reading, schema, gives => by
    rw [read] at gives
    exact read_keyed content reading schema gives
  | .shared content, reading, schema, gives => by
    rw [read] at gives
    obtain ⟨-, -, gives⟩ := gives.bind
    exact read_keyed content reading schema gives
  | .broken, reading, schema, gives => by
    rw [read] at gives
    exact (not_gives_failure gives).elim

theorem readings_keyed : ∀ node : Node,
    SchemaReadings.Keyed ⟨fun reading => read node reading, fun reading => readList node reading,
      fun reading => readMapping node reading⟩
  | node => ⟨fun reading schema gives => (read_keyed node reading schema gives).keyed,
      fun reading schemas gives => readList_keyed node reading schemas gives,
      fun reading entries gives => readMapping_keyed node reading entries gives⟩

theorem readEntries_keyed : ∀ (entries : List (Node × Node)) (reading : Reading) (seen : List Nat)
    (draft schema : Schema), draft.KeyedParts → Gives (readEntries entries reading seen draft) schema →
    schema.KeyedParts
  | [], _, _, draft, schema, parts, gives => by
    rw [readEntries] at gives
    obtain rfl := gives.pure
    exact parts
  | (key, value) :: rest, reading, seen, draft, schema, parts, gives => by
    rw [readEntries] at gives
    obtain ⟨index, -, gives⟩ := gives.bind
    split at gives
    · split at gives
      · exact readEntries_keyed rest reading seen draft schema parts gives
      · exact (not_gives_failure gives).elim
    · split at gives
      · exact (not_gives_failure gives).elim
      · obtain ⟨keyword, -, gives⟩ := gives.bind
        obtain ⟨next, read, gives⟩ := gives.bind
        have step := Keyword.read_keyed (readings_keyed value) parts read
        exact readEntries_keyed rest reading _ next schema step gives

theorem readFields_keyed : ∀ (items : List Node) (keywords : List Keyword) (reading : Reading)
    (draft schema : Schema), draft.KeyedParts →
    Gives (readFields items keywords reading draft) schema → schema.KeyedParts
  | [], _, _, draft, schema, parts, gives => by
    rw [readFields] at gives
    obtain rfl := gives.pure
    exact parts
  | _ :: _, [], _, _, _, _, gives => by
    rw [readFields] at gives
    exact (not_gives_failure gives).elim
  | value :: rest, keyword :: later, reading, draft, schema, parts, gives => by
    rw [readFields] at gives
    obtain ⟨next, read, gives⟩ := gives.bind
    have step := Keyword.read_keyed (readings_keyed value) parts read
    exact readFields_keyed rest later reading next schema step gives

theorem readList_keyed : ∀ (node : Node) (reading : Reading) (schemas : List Schema),
    Gives (readList node reading) schemas → ∀ schema ∈ schemas, schema.Keyed
  | .list _ items, reading, schemas, gives => by
    rw [readList] at gives
    exact readAll_keyed items reading schemas gives
  | .scalar leaf, reading, schemas, gives => by
    rw [readList] at gives
    split at gives
    · obtain rfl := gives.pure
      exact List.forall_mem_nil _
    · exact (not_gives_failure gives).elim
  | .tagged content, reading, schemas, gives => by
    rw [readList] at gives
    exact readList_keyed content reading schemas gives
  | .shared content, reading, schemas, gives => by
    rw [readList] at gives
    obtain ⟨-, -, gives⟩ := gives.bind
    exact readList_keyed content reading schemas gives
  | .map _, reading, schemas, gives => by
    rw [readList_map] at gives
    exact (not_gives_failure gives).elim
  | .broken, reading, schemas, gives => by
    rw [readList_broken] at gives
    exact (not_gives_failure gives).elim

theorem readAll_keyed : ∀ (items : List Node) (reading : Reading) (schemas : List Schema),
    Gives (readAll items reading) schemas → ∀ schema ∈ schemas, schema.Keyed
  | [], _, schemas, gives => by
    rw [readAll] at gives
    obtain rfl := gives.pure
    exact List.forall_mem_nil _
  | item :: rest, reading, schemas, gives => by
    rw [readAll] at gives
    obtain ⟨first, head, gives⟩ := gives.bind
    obtain ⟨later, tail, gives⟩ := gives.bind
    obtain rfl := gives.pure
    intro schema member
    rcases List.mem_cons.mp member with rfl | member
    · exact (read_keyed item reading schema head).keyed
    · exact readAll_keyed rest reading later tail schema member

theorem readMapping_keyed : ∀ (node : Node) (reading : Reading) (entries : List (String × Schema)),
    Gives (readMapping node reading) entries →
    Entries.Distinct entries ∧ ∀ entry ∈ entries, entry.2.Keyed
  | .map pairs, reading, entries, gives => by
    rw [readMapping] at gives
    obtain ⟨given, made, gives⟩ := gives.bind
    obtain rfl := gives.pure
    refine ⟨Entries.distinct_ofList given, fun entry member => ?_⟩
    obtain ⟨pair, present, same⟩ := Entries.mem_ofList member
    exact same ▸ readPairs_keyed pairs reading given made pair present
  | .scalar leaf, reading, entries, gives => by
    rw [readMapping] at gives
    split at gives
    · obtain rfl := gives.pure
      exact ⟨List.nodup_nil, List.forall_mem_nil _⟩
    · exact (not_gives_failure gives).elim
  | .tagged content, reading, entries, gives => by
    rw [readMapping] at gives
    exact readMapping_keyed content reading entries gives
  | .shared content, reading, entries, gives => by
    rw [readMapping] at gives
    obtain ⟨-, -, gives⟩ := gives.bind
    exact readMapping_keyed content reading entries gives
  | .list _ _, reading, entries, gives => by
    rw [readMapping_list] at gives
    exact (not_gives_failure gives).elim
  | .broken, reading, entries, gives => by
    rw [readMapping_broken] at gives
    exact (not_gives_failure gives).elim

theorem readPairs_keyed : ∀ (pairs : List (Node × Node)) (reading : Reading)
    (entries : List (String × Schema)), Gives (readPairs pairs reading) entries →
    ∀ entry ∈ entries, entry.2.Keyed
  | [], _, entries, gives => by
    rw [readPairs] at gives
    obtain rfl := gives.pure
    exact List.forall_mem_nil _
  | (key, value) :: rest, reading, entries, gives => by
    rw [readPairs] at gives
    obtain ⟨name, -, gives⟩ := gives.bind
    obtain ⟨schema, head, gives⟩ := gives.bind
    obtain ⟨later, tail, gives⟩ := gives.bind
    obtain rfl := gives.pure
    intro entry member
    rcases List.mem_cons.mp member with rfl | member
    · exact (read_keyed value reading schema head).keyed
    · exact readPairs_keyed rest reading later tail entry member

end

end Schema

/-! ### Schemas in documents -/

def Content.Keyed (content : Content) : Prop :=
  ∀ entry ∈ content, ∀ schema, entry.2.schema = some schema → schema.Keyed

def Parameter.Keyed (parameter : Parameter) : Prop :=
  ∀ schema, parameter.schema = some schema → schema.Keyed

/-- What is asked of a value in place. A reference holds no value. -/
def Referable.Inside {α : Type} (holds : α → Prop) (item : Referable α) : Prop :=
  ∀ value, item = .inline value → holds value

structure Operation.Keyed (operation : Operation) : Prop where
  parameters : ∀ item ∈ operation.parameters, item.Inside Parameter.Keyed
  requestBody : ∀ item, operation.requestBody = some item → item.Inside (·.content.Keyed)
  responses : ∀ entry ∈ operation.responses, entry.2.Inside (·.content.Keyed)

structure PathItem.Keyed (item : PathItem) : Prop where
  parameters : ∀ parameter ∈ item.parameters, parameter.Inside Parameter.Keyed
  operations : ∀ entry ∈ item.operations, entry.2.Keyed

structure Components.SchemasKeyed (components : Components) : Prop where
  schemas : ∀ entry ∈ components.schemas, entry.2.Keyed
  responses : ∀ entry ∈ components.responses, entry.2.Inside (·.content.Keyed)
  parameters : ∀ entry ∈ components.parameters, entry.2.Inside Parameter.Keyed
  requestBodies : ∀ entry ∈ components.requestBodies, entry.2.Inside (·.content.Keyed)

structure Document.SchemasKeyed (document : Document) : Prop where
  paths : ∀ entry ∈ document.paths, entry.2.Keyed
  components : document.components.SchemasKeyed

theorem Content.Keyed.schema {content : Content} {schema : Schema} (keyed : content.Keyed)
    (declared : content.schema = some schema) : schema.Keyed := by
  obtain ⟨media, preferred, declared⟩ := Option.bind_eq_some_iff.mp declared
  obtain ⟨entry, found, rfl⟩ := Option.map_eq_some_iff.mp preferred
  rcases Option.or_eq_some_iff.mp found with json | ⟨-, first⟩
  · exact keyed entry (List.mem_of_find?_eq_some json) schema declared
  · exact keyed entry (List.mem_of_head? first) schema declared

section Parts

variable {reading : Reading} {node : Node}

theorem Gives.inside {α : Type} {read : Node → Read α} {item : Referable α} {holds : α → Prop}
    (gives : Gives (Referable.read read reading node) item)
    (each : ∀ node value, Gives (read node) value → holds value) : item.Inside holds := by
  rintro value rfl
  obtain ⟨node, given⟩ := gives.referable
  exact each node value given

theorem Schema.optional_keyed {slot : Option Node} {schema : Schema}
    (gives : Gives (Slot.optional reading (Schema.read · reading) slot) (some schema)) :
    schema.Keyed := by
  obtain ⟨node, gives⟩ := gives.optional
  exact (Schema.read_keyed node reading schema gives).keyed

theorem Content.read_keyed {content : Content} (gives : Gives (Content.read reading node) content) :
    content.Keyed := by
  intro entry member schema declared
  obtain ⟨media, gives⟩ := gives.mapping_mem member
  obtain ⟨slots, -, gives⟩ := gives.bind
  split at gives
  · obtain ⟨given, gives, same⟩ := gives.map
    rw [same] at declared
    obtain rfl := declared
    exact Schema.optional_keyed gives
  · exact (not_gives_failure gives).elim

theorem Content.defaulted_keyed {slot : Option Node} {content : Content}
    (gives : Gives (Slot.defaulted [] (Content.read reading) slot) content) : content.Keyed := by
  rcases gives.defaulted with rfl | ⟨node, given⟩
  · exact fun _ none => nomatch none
  · exact Content.read_keyed given

theorem Parameter.read_keyed {parameter : Parameter} (gives : Gives (Parameter.read node) parameter) :
    parameter.Keyed := by
  obtain ⟨slots, -, gives⟩ := gives.bind
  split at gives
  · obtain ⟨name, -, gives⟩ := gives.bind
    obtain ⟨location, -, gives⟩ := gives.bind
    obtain ⟨isRequired, -, gives⟩ := gives.bind
    obtain ⟨description, -, gives⟩ := gives.bind
    obtain ⟨deprecated, -, gives⟩ := gives.bind
    obtain ⟨schema, read, gives⟩ := gives.bind
    obtain rfl := gives.pure
    rintro _ rfl
    exact Schema.optional_keyed read
  · exact (not_gives_failure gives).elim

theorem RequestBody.read_keyed {body : RequestBody} (gives : Gives (RequestBody.read node) body) :
    body.content.Keyed := by
  obtain ⟨slots, -, gives⟩ := gives.bind
  split at gives
  · obtain ⟨description, -, gives⟩ := gives.bind
    obtain ⟨isRequired, -, gives⟩ := gives.bind
    obtain ⟨content, read, gives⟩ := gives.bind
    obtain rfl := gives.pure
    exact Content.defaulted_keyed read
  · exact (not_gives_failure gives).elim

theorem Response.read_keyed {response : Response} (gives : Gives (Response.read node) response) :
    response.content.Keyed := by
  obtain ⟨slots, -, gives⟩ := gives.bind
  split at gives
  · obtain ⟨description, -, gives⟩ := gives.bind
    obtain ⟨content, read, gives⟩ := gives.bind
    obtain rfl := gives.pure
    exact Content.defaulted_keyed read
  · exact (not_gives_failure gives).elim

theorem readParameters_keyed {items : List (Referable Parameter)}
    (gives : Gives (readParameters node) items) : ∀ item ∈ items, item.Inside Parameter.Keyed := by
  intro item member
  obtain ⟨node, gives⟩ := gives.list_mem member
  exact gives.inside fun _ _ => Parameter.read_keyed

theorem Operation.read_keyed {operation : Operation} (gives : Gives (Operation.read node) operation) :
    operation.Keyed := by
  obtain ⟨slots, -, gives⟩ := gives.bind
  split at gives
  · obtain ⟨operationId, -, gives⟩ := gives.bind
    obtain ⟨summary, -, gives⟩ := gives.bind
    obtain ⟨description, -, gives⟩ := gives.bind
    obtain ⟨tags, -, gives⟩ := gives.bind
    obtain ⟨parameters, parametersRead, gives⟩ := gives.bind
    obtain ⟨body, bodyRead, gives⟩ := gives.bind
    obtain ⟨responses, responsesRead, gives⟩ := gives.bind
    obtain ⟨deprecated, -, gives⟩ := gives.bind
    obtain rfl := gives.pure
    refine ⟨fun item member => ?_, ?_, fun entry member => ?_⟩
    · rcases parametersRead.defaulted with rfl | ⟨node, given⟩
      · cases member
      · exact readParameters_keyed given item member
    · rintro item rfl
      obtain ⟨node, gives⟩ := bodyRead.optional
      exact gives.inside fun _ _ => RequestBody.read_keyed
    · obtain ⟨node, gives⟩ := responsesRead.defaulted_mem member
      exact gives.inside fun _ _ => Response.read_keyed
  · exact (not_gives_failure gives).elim

theorem PathItem.ofEntries_keyed {entries : List (String × Node)} {before item : PathItem}
    (keyed : before.Keyed) (yields : Yields (PathItem.ofEntries before entries) item) : item.Keyed := by
  induction entries generalizing before with
  | nil =>
    obtain rfl := yields.pure
    exact keyed
  | cons entry rest ih =>
    obtain ⟨key, value⟩ := entry
    rw [PathItem.ofEntries] at yields
    split at yields
    · obtain ⟨parameters, given, yields⟩ := yields.bind
      have next : Keyed { before with parameters } :=
        ⟨readParameters_keyed given.of_unless, keyed.operations⟩
      exact ih next yields
    split at yields
    · obtain ⟨operation, given, yields⟩ := yields.bind
      have operations : ∀ entry ∈ before.operations ++ [(key, operation)], entry.2.Keyed := by
        intro entry member
        rcases List.mem_append.mp member with old | new
        · exact keyed.operations entry old
        · obtain rfl := List.mem_singleton.mp new
          exact Operation.read_keyed given.of_unless
      have next : Keyed { before with operations := before.operations ++ [(key, operation)] } :=
        ⟨keyed.parameters, operations⟩
      exact ih next yields
    · exact ih keyed yields

theorem PathItem.read_keyed {item : PathItem} (yields : Yields (PathItem.read reading node) item) :
    item.Keyed := by
  obtain ⟨entries, -, yields⟩ := yields.bind
  have empty : PathItem.Keyed {} := ⟨fun _ none => (nomatch none), fun _ none => nomatch none⟩
  exact PathItem.ofEntries_keyed empty yields

theorem Components.schemasKeyed_empty : Components.SchemasKeyed {} :=
  ⟨fun _ none => (nomatch none), fun _ none => (nomatch none), fun _ none => (nomatch none),
    fun _ none => nomatch none⟩

theorem Components.read_schemasKeyed {components : Components}
    (gives : Gives (Components.read reading node) components) : components.SchemasKeyed := by
  obtain ⟨⟨_, schemas⟩, ⟨_, responses⟩, ⟨_, parameters⟩, ⟨_, requestBodies⟩⟩ :=
    sectionsRead_of_read gives
  constructor <;> intro entry member
  · obtain ⟨node, gives⟩ := schemas.defaulted_mem member
    exact (Schema.read_keyed node reading entry.2 gives).keyed
  · obtain ⟨node, gives⟩ := responses.defaulted_mem member
    exact gives.inside fun _ _ => Response.read_keyed
  · obtain ⟨node, gives⟩ := parameters.defaulted_mem member
    exact gives.inside fun _ _ => Parameter.read_keyed
  · obtain ⟨node, gives⟩ := requestBodies.defaulted_mem member
    exact gives.inside fun _ _ => RequestBody.read_keyed

end Parts

/-- No schema of a document that was read declares a property twice. -/
theorem Document.ofParsed_schemasKeyed {parsed : Parsed} {document : Document}
    (made : ofParsed parsed = .ok document) : document.SchemasKeyed := by
  have reads := ofParsed_reads made
  refine ⟨fun entry member => ?_, ?_⟩
  · obtain ⟨reading, node, yields⟩ := reads.paths.items entry member
    exact PathItem.read_keyed yields
  · rcases reads.components with none | ⟨reading, node, gives⟩
    · exact none ▸ Components.schemasKeyed_empty
    · exact Components.read_schemasKeyed gives

end TypedClient
