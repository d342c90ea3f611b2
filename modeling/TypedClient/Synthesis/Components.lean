import TypedClient.Synthesis.Schema
import TypedClient.DocComment

/-! Named definitions of the components: schemas, then responses, then request bodies. -/
namespace TypedClient

inductive Component where
  | schema (key : String) (schema : Schema)
  | response (key : String) (response : Referable Response)
  | requestBody (key : String) (body : Referable RequestBody)

namespace Component

def source : Component → Source
  | .schema key _ => .schema key
  | .response key _ => .response key
  | .requestBody key _ => .requestBody key

def typeName : Component → String
  | .schema key _ => Root.schema.typeName key
  | .response key _ => Root.response.typeName key
  | .requestBody key _ => Root.requestBody.typeName key

/-- A response without a schema is `void`. -/
def responseDefinition (resolver : Resolver) (name : String) (response : Response) :
    Synthesis Definition := do
  let type ←
    match response.content.schema with
    | some node => node.synthesize resolver name
    | none => pure (.scalar .void)
  let schemaText := response.content.schema.bind (·.description)
  pure ⟨name, type, DocComment.ofTexts (response.description.toList ++ schemaText.toList)⟩

/-- A request body without a schema is `any`. -/
def requestBodyDefinition (resolver : Resolver) (name : String) (body : RequestBody) :
    Synthesis Definition := do
  let type ←
    match body.content.schema with
    | some node => node.synthesize resolver name
    | none => pure .any
  pure ⟨name, type, DocComment.ofTexts body.description.toList⟩

/-- A component that is only a reference becomes an alias of its target. -/
def aliasDefinition (resolver : Resolver) (name path : String) : Synthesis Definition := do
  let target ← Traced.ofExcept (resolver.resolve path)
  pure ⟨name, .named target, none⟩

def schemaDefinition (resolver : Resolver) (key : String) (schema : Schema) :
    Synthesis Definition := do
  let name := Root.schema.typeName key
  let type ←
    match schema.ref with
    | some target => do
      let resolved ← Traced.ofExcept (resolver.resolve target)
      pure (.named resolved)
    | none => schema.synthesize resolver name
  pure ⟨name, type, DocComment.ofTexts schema.description.toList⟩

def definition (resolver : Resolver) : Component → Synthesis Definition
  | .schema key node => schemaDefinition resolver key node
  | .response key (.reference path) =>
    aliasDefinition resolver (Root.response.typeName key) path
  | .response key (.inline given) =>
    responseDefinition resolver (Root.response.typeName key) given
  | .requestBody key (.reference path) =>
    aliasDefinition resolver (Root.requestBody.typeName key) path
  | .requestBody key (.inline body) =>
    requestBodyDefinition resolver (Root.requestBody.typeName key) body

end Component

namespace Resolver

def declared (resolver : Resolver) : List Component :=
  resolver.schemas.map (fun entry => .schema entry.1 entry.2) ++
    resolver.components.responses.map (fun entry => .response entry.1 entry.2) ++
    resolver.components.requestBodies.map (fun entry => .requestBody entry.1 entry.2)

/-- Registers components up to the first that fails. -/
def register (resolver : Resolver) (registry : Registry) :
    List Component → Registry × Synthesis Unit
  | [] => (registry, pure ())
  | component :: rest =>
    let made := component.definition resolver
    match made.outcome with
    | .error cause => (registry, ⟨made.events, .error cause⟩)
    | .ok definition =>
      let entry : Registration := ⟨definition, component.source⟩
      let (final, later) := register resolver (registry.insert entry) rest
      (final, ⟨made.events ++ registry.reports entry ++ later.events, later.outcome⟩)

/-- Registers every component definition. A failure leaves what was registered before it. -/
def registerComponents (resolver : Resolver) (registry : Registry) : Registry × Synthesis Unit :=
  let (final, run) := resolver.register registry resolver.declared
  (final, do
    run
    Traced.report (.componentsRegistered final.size))

end Resolver
end TypedClient
