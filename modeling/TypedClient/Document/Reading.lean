import TypedClient.Notation.Access
import TypedClient.Document.Basic

/-!
Documents from nodes. Unknown fields are passed over, optional fields may be null, and where a value
has alternatives it is first read by itself and then as the first alternative that fits.
-/
namespace TypedClient
open Notation

/-! ### Parts of a record -/

namespace Slot

def optional {α : Type} (reading : Reading) (read : Node → Read α) :
    Option Node → Read (Option α)
  | none => pure none
  | some node => do if ← node.isAbsent reading then pure none else some <$> read node

def defaulted {α : Type} (fallback : α) (read : Node → Read α) : Option Node → Read α
  | none => pure fallback
  | some node => read node

def required {α : Type} (read : Node → Read α) : Option Node → Read α
  | none => failure
  | some node => read node

end Slot

def listOf {α : Type} (reading : Reading) (read : Node → Read α) (node : Node) : Read (List α) := do
  (← node.items reading).mapM read

def mappingOf {α : Type} (reading : Reading) (read : Node → Read α) (node : Node) :
    Read (List (String × α)) := do
  let pairs ← (← node.entries reading).mapM fun (name, value) => (name, ·) <$> read value
  pure (Entries.ofList pairs)

/-! ### Schemas -/

def TypeNames.read (reading : Reading) (node : Node) : Read TypeNames := do
  node.settleFor reading
  match node.atom? with
  | some (.text name) => pure (.single name)
  | _ => .several <$> listOf .intrinsic (Node.text .intrinsic) node

/-- Integers beyond 64 bits with sign count as floating point numbers. -/
def EnumValue.ofAtom : Atom → EnumValue
  | .text value => .text value
  | .integer value =>
    if -0x8000000000000000 ≤ value ∧ value < 0x8000000000000000 then .integer value
    else .float (.ofInt value)
  | .float value => .float value
  | .flag value => .flag value
  | .null => .null

def EnumValue.read (reading : Reading) (node : Node) : Read EnumValue := do
  node.settleFor reading
  pure (.ofAtom (← node.atom?))

def Discriminator.read (reading : Reading) (node : Node) : Read Discriminator := do
  match ← node.slots reading ⟨["propertyName", "mapping"], 1⟩ with
  | [property, mapping] =>
    let property ← Slot.required (Node.text reading) property
    let mapping ← Slot.defaulted [] (mappingOf reading (Node.text reading)) mapping
    pure { property, mapping }
  | _ => failure

/-- The fields of a schema, in declaration order. -/
inductive Keyword where
  | type
  | ref
  | format
  | description
  | properties
  | required
  | items
  | enum
  | allOf
  | oneOf
  | anyOf
  | additional
  | discriminator
  | nullable
  deriving DecidableEq

namespace Keyword

def all : List Keyword := [
  .type, .ref, .format, .description, .properties, .required, .items, .enum, .allOf, .oneOf, .anyOf,
  .additional, .discriminator, .nullable]

def name : Keyword → String
  | .type => "type"
  | .ref => "$ref"
  | .format => "format"
  | .description => "description"
  | .properties => "properties"
  | .required => "required"
  | .items => "items"
  | .enum => "enum"
  | .allOf => "allOf"
  | .oneOf => "oneOf"
  | .anyOf => "anyOf"
  | .additional => "additionalProperties"
  | .discriminator => "discriminator"
  | .nullable => "nullable"

def names : List String :=
  all.map name

/-- Only the last keyword may be missing from a schema that is written as a list. -/
def least : Nat := 13

end Keyword

structure SchemaReadings where
  schema : Reading → Read Schema
  list : Reading → Read (List Schema)
  mapping : Reading → Read (List (String × Schema))

def Additional.read (reading : Reading) (node : Node) (readings : SchemaReadings) :
    Read (Additional Schema) := do
  node.settleFor reading
  match node.atom? with
  | some (.flag allowed) => pure (.flag allowed)
  | _ => .values <$> readings.schema .intrinsic

def Keyword.read (reading : Reading) (node : Node) (readings : SchemaReadings) (draft : Schema)
    (keyword : Keyword) : Read Schema := do
  let optionally {α : Type} (read : Node → Read α) : Read (Option α) :=
    Slot.optional reading read (some node)
  match keyword with
  | .type => pure { draft with type := ← optionally (TypeNames.read reading) }
  | .ref => pure { draft with ref := ← optionally (Node.text reading) }
  | .format => pure { draft with format := ← optionally (Node.text reading) }
  | .description => pure { draft with description := ← optionally (Node.text reading) }
  | .properties => pure { draft with properties := ← optionally fun _ => readings.mapping reading }
  | .required => pure { draft with required := ← listOf reading (Node.text reading) node }
  | .items => pure { draft with items := ← optionally fun _ => readings.schema reading }
  | .enum => pure { draft with enum := ← optionally (listOf reading (EnumValue.read reading)) }
  | .allOf => pure { draft with allOf := ← optionally fun _ => readings.list reading }
  | .oneOf => pure { draft with oneOf := ← optionally fun _ => readings.list reading }
  | .anyOf => pure { draft with anyOf := ← optionally fun _ => readings.list reading }
  | .additional =>
    pure { draft with additional := ← optionally (Additional.read reading · readings) }
  | .discriminator =>
    pure { draft with discriminator := ← optionally (Discriminator.read reading) }
  | .nullable => pure { draft with nullable := ← node.flag reading }

namespace Schema

mutual

def read : Node → Reading → Read Schema
  | .map entries, reading => readEntries entries reading [] {}
  | .list positional items, reading =>
    if (positional || reading == .intrinsic) && Keyword.least ≤ items.length then
      readFields items Keyword.all reading {}
    else failure
  | .scalar leaf, reading => if leaf.isHollow reading then pure {} else failure
  | .tagged content, reading => read content reading
  | .shared content, reading => do
    Node.jump reading
    read content reading
  | .broken, _ => failure

/-- No keyword may be given twice. -/
def readEntries : List (Node × Node) → Reading → List Nat → Schema → Read Schema
  | [], _, _, draft => pure draft
  | (key, value) :: rest, reading, seen, draft => do
    match ← key.field reading Keyword.names with
    | none => if value.isWellFormed then readEntries rest reading seen draft else failure
    | some index =>
      if seen.contains index then failure
      else
        let keyword ← liftM Keyword.all[index]?
        let next ← keyword.read reading value
          ⟨fun reading => read value reading, fun reading => readList value reading,
            fun reading => readMapping value reading⟩ draft
        readEntries rest reading (index :: seen) next

def readFields : List Node → List Keyword → Reading → Schema → Read Schema
  | [], _, _, draft => pure draft
  | _ :: _, [], _, _ => failure
  | value :: rest, keyword :: later, reading, draft => do
    let next ← keyword.read reading value
      ⟨fun reading => read value reading, fun reading => readList value reading,
        fun reading => readMapping value reading⟩ draft
    readFields rest later reading next

def readList : Node → Reading → Read (List Schema)
  | .list _ items, reading => readAll items reading
  | .scalar leaf, reading => if leaf.isHollow reading then pure [] else failure
  | .tagged content, reading => readList content reading
  | .shared content, reading => do
    Node.jump reading
    readList content reading
  | _, _ => failure

def readAll : List Node → Reading → Read (List Schema)
  | [], _ => pure []
  | item :: rest, reading => do
    let schema ← read item reading
    let later ← readAll rest reading
    pure (schema :: later)

def readMapping : Node → Reading → Read (List (String × Schema))
  | .map entries, reading => do pure (Entries.ofList (← readPairs entries reading))
  | .scalar leaf, reading => if leaf.isHollow reading then pure [] else failure
  | .tagged content, reading => readMapping content reading
  | .shared content, reading => do
    Node.jump reading
    readMapping content reading
  | _, _ => failure

def readPairs : List (Node × Node) → Reading → Read (List (String × Schema))
  | [], _ => pure []
  | (key, value) :: rest, reading => do
    let name ← key.text reading
    let schema ← read value reading
    let later ← readPairs rest reading
    pure ((name, schema) :: later)

end

end Schema

/-! ### Documents -/

def MediaType.read (reading : Reading) (node : Node) : Read MediaType := do
  match ← node.slots reading ⟨["schema"], 1⟩ with
  | [schema] => .mk <$> Slot.optional reading (Schema.read · reading) schema
  | _ => failure

def Content.read (reading : Reading) (node : Node) : Read Content :=
  mappingOf reading (MediaType.read reading) node

namespace Referable

/-- The text under `$ref`, whatever stands beside it. -/
def path (node : Node) : Read String := do
  match ← node.slots .intrinsic ⟨["$ref"], 1⟩ with
  | [path] => Slot.required (Node.text .intrinsic) path
  | _ => failure

def read {α : Type} (inline : Node → Read α) (reading : Reading) (node : Node) :
    Read (Referable α) := do
  node.settleFor reading
  (.reference <$> path node) <|> (.inline <$> inline node)

end Referable

/-- A location is its name, or a mapping of its name to null. -/
def Location.read (node : Node) : Read Location := do
  let names := ["path", "query", "header", "cookie"]
  let index ←
    match node.bare with
    | .map [(key, value)] =>
      if value.atom? == some .null then key.field .intrinsic names else failure
    | node => do
      let name ← node.text .intrinsic
      pure (names.findIdx? (· == name))
  match index with
  | some 0 => pure .path
  | some 1 => pure .query
  | some 2 => pure .header
  | some 3 => pure .cookie
  | _ => failure

def Parameter.read (node : Node) : Read Parameter := do
  let form : Form := ⟨["name", "in", "required", "description", "deprecated", "schema"], 6⟩
  match ← node.slots .intrinsic form with
  | [name, location, isRequired, description, deprecated, schema] =>
    let name ← Slot.required (Node.text .intrinsic) name
    let location ← Slot.required Location.read location
    let isRequired ← Slot.defaulted false (Node.flag .intrinsic) isRequired
    let description ← Slot.optional .intrinsic (Node.text .intrinsic) description
    let deprecated ← Slot.defaulted false (Node.flag .intrinsic) deprecated
    let schema ← Slot.optional .intrinsic (Schema.read · .intrinsic) schema
    pure { name, location, required := isRequired, description, deprecated, schema }
  | _ => failure

def RequestBody.read (node : Node) : Read RequestBody := do
  match ← node.slots .intrinsic ⟨["description", "required", "content"], 1⟩ with
  | [description, isRequired, content] =>
    let description ← Slot.optional .intrinsic (Node.text .intrinsic) description
    let isRequired ← Slot.defaulted false (Node.flag .intrinsic) isRequired
    let content ← Slot.defaulted [] (Content.read .intrinsic) content
    pure { description, required := isRequired, content }
  | _ => failure

def Response.read (node : Node) : Read Response := do
  match ← node.slots .intrinsic ⟨["description", "content"], 1⟩ with
  | [description, content] =>
    let description ← Slot.optional .intrinsic (Node.text .intrinsic) description
    let content ← Slot.defaulted [] (Content.read .intrinsic) content
    pure { description, content }
  | _ => failure

def readParameters (node : Node) : Read (List (Referable Parameter)) :=
  listOf .intrinsic (Referable.read Parameter.read .intrinsic) node

def Operation.read (node : Node) : Read Operation := do
  let form : Form :=
    ⟨["operationId", "summary", "description", "tags", "parameters", "requestBody", "responses",
      "deprecated"], 6⟩
  match ← node.slots .intrinsic form with
  | [operationId, summary, description, tags, parameters, body, responses, deprecated] =>
    let operationId ← Slot.optional .intrinsic (Node.text .intrinsic) operationId
    let summary ← Slot.optional .intrinsic (Node.text .intrinsic) summary
    let description ← Slot.optional .intrinsic (Node.text .intrinsic) description
    let tags ← Slot.defaulted [] (listOf .intrinsic (Node.text .intrinsic)) tags
    let parameters ← Slot.defaulted [] readParameters parameters
    let requestBody ← Slot.optional .intrinsic (Referable.read RequestBody.read .intrinsic) body
    let responses ←
      Slot.defaulted [] (mappingOf .intrinsic (Referable.read Response.read .intrinsic)) responses
    let deprecated ← Slot.defaulted false (Node.flag .intrinsic) deprecated
    pure { operationId, summary, description, tags, parameters, requestBody, responses, deprecated }
  | _ => failure

def Components.read (reading : Reading) (node : Node) : Read Components := do
  match ← node.slots reading ⟨["schemas", "responses", "parameters", "requestBodies"], 0⟩ with
  | [schemas, responses, parameters, requestBodies] =>
    let schemas ← Slot.defaulted [] (mappingOf reading (Schema.read · reading)) schemas
    let responses ←
      Slot.defaulted [] (mappingOf reading (Referable.read Response.read reading)) responses
    let parameters ←
      Slot.defaulted [] (mappingOf reading (Referable.read Parameter.read reading)) parameters
    let requestBodies ←
      Slot.defaulted [] (mappingOf reading (Referable.read RequestBody.read reading)) requestBodies
    pure { schemas, responses, parameters, requestBodies }
  | _ => failure

inductive Malformed where
  | document
  | pathParameters
  | operation (key : String)
  deriving DecidableEq

def Malformed.message : Malformed → String
  | .document => "failed to parse API document"
  | .pathParameters => "failed to parse API document: invalid path-level parameters"
  | .operation key => "failed to parse API document: invalid `" ++ key ++ "` operation"

abbrev Located := StateT Nat (Except Malformed)

def Malformed.unless {α : Type} (fault : Malformed) (read : Read α) : Located α := fun left =>
  match read left with
  | some result => .ok result
  | none => .error fault

namespace PathItem

def operationKeys : List String :=
  ["get", "put", "post", "delete", "options", "head", "patch", "trace"]

/-- Reads the entries of a path in order. Keys that are no methods are passed over. -/
def ofEntries (item : PathItem) : List (String × Node) → Located PathItem
  | [] => pure item
  | (key, value) :: rest => do
    if key == "parameters" then
      let parameters ← Malformed.pathParameters.unless (readParameters value)
      ofEntries { item with parameters } rest
    else if operationKeys.contains key then
      let operation ← (Malformed.operation key).unless (Operation.read value)
      ofEntries { item with operations := item.operations ++ [(key, operation)] } rest
    else ofEntries item rest

/-- A path is first taken as plain data. -/
def read (reading : Reading) (node : Node) : Located PathItem := do
  let entries ← Malformed.document.unless do
    (← node.entries reading).mapM fun (name, value) => (name, ·) <$> value.plain
  ofEntries {} (Entries.ofList entries)

end PathItem

namespace Document

def readPathEntries (reading : Reading) (paths : List (String × PathItem)) :
    List (Node × Node) → Located (List (String × PathItem))
  | [] => pure paths
  | (key, value) :: rest => do
    let route ← Malformed.document.unless (key.text reading)
    let item ← PathItem.read reading value
    readPathEntries reading (Entries.put route item paths) rest

def readPaths (reading : Reading) : Node → Located (List (String × PathItem))
  | .map entries => readPathEntries reading [] entries
  | .tagged content => readPaths reading content
  | .shared content => do
    Malformed.document.unless (Node.jump reading)
    readPaths reading content
  | node => do
    let _ ← Malformed.document.unless (node.entries reading)
    pure []

def fields : List String := ["paths", "components"]

/-- Reads the fields in the order in which they stand, so that the first failure counts. -/
def readEntries (reading : Reading) (seen : List Nat) (document : Document) :
    List (Node × Node) → Located Document
  | [] => pure document
  | (key, value) :: rest => do
    match ← Malformed.document.unless (key.field reading fields) with
    | none =>
      if value.isWellFormed then readEntries reading seen document rest
      else throw .document
    | some index =>
      if seen.contains index then throw .document
      else if index = 0 then
        let paths ← readPaths reading value
        readEntries reading (index :: seen) { document with paths } rest
      else
        let components ← Malformed.document.unless (Components.read reading value)
        readEntries reading (index :: seen) { document with components } rest

def readItems (reading : Reading) : List Node → Located Document
  | [] => pure {}
  | [paths] => do pure { paths := ← readPaths reading paths }
  | paths :: components :: rest => do
    let paths ← readPaths reading paths
    let components ← Malformed.document.unless (Components.read reading components)
    if rest.isEmpty then pure { paths, components } else throw .document

def read (reading : Reading) : Node → Located Document
  | .map entries => readEntries reading [] {} entries
  | .list positional items => if positional then readItems reading items else throw .document
  | .scalar leaf => if leaf.isHollow reading then pure {} else throw .document
  | .tagged content => read reading content
  | .shared content => do
    Malformed.document.unless (Node.jump reading)
    read reading content
  | .broken => throw .document

end Document
end TypedClient
