import TypedClient.Proofs.Document.Plain

/-!
Documents reduced to what synthesis looks at: no media types beside the preferred ones, no redirects, no
cookies given in place, and no operations of the methods that no client has.
-/
namespace TypedClient

/-- The preferred entry alone. -/
def Content.relevant (content : Content) : Content :=
  ((content.find? fun entry => isJsonMedia entry.1).or content.head?).toList

def RequestBody.relevant (body : RequestBody) : RequestBody :=
  { body with content := Content.relevant body.content }

def Response.relevant (response : Response) : Response :=
  { response with content := Content.relevant response.content }

/-- A cookie that is given in place. What a reference leads to is not looked at. -/
def Referable.isCookie : Referable Parameter → Bool
  | .inline parameter => parameter.location == .cookie
  | .reference _ => false

def isRedirect (status : String) : Bool :=
  status.toList.head? == some '3'

namespace Operation

def relevantParameters (items : List (Referable Parameter)) : List (Referable Parameter) :=
  items.filter fun item => !item.isCookie

def relevantResponses (responses : List (String × Referable Response)) :
    List (String × Referable Response) :=
  Entries.mapValues (.map .relevant) (responses.filter fun entry => !isRedirect entry.1)

def relevant (operation : Operation) : Operation :=
  { operation with
    parameters := relevantParameters operation.parameters
    requestBody := operation.requestBody.map (.map .relevant)
    responses := relevantResponses operation.responses }

end Operation

namespace PathItem

def skippedKeys : List String :=
  ["head", "options", "trace"]

def relevantOperations (operations : List (String × Operation)) : List (String × Operation) :=
  Entries.mapValues .relevant (operations.filter fun entry => !skippedKeys.contains entry.1)

def relevant (item : PathItem) : PathItem where
  parameters := Operation.relevantParameters item.parameters
  operations := relevantOperations item.operations

end PathItem

def Components.relevant (components : Components) : Components :=
  { components with
    responses := Entries.mapValues (.map .relevant) components.responses
    requestBodies := Entries.mapValues (.map .relevant) components.requestBodies }

def Document.relevant (document : Document) : Document where
  paths := Entries.mapValues .relevant document.paths
  components := document.components.relevant

/-- The preferred entry is preferred when it is alone. -/
theorem Content.preferred_relevant (content : Content) :
    content.relevant.preferred = content.preferred := by
  unfold Content.preferred Content.relevant
  cases ((content.find? fun entry => isJsonMedia entry.1).or content.head?) with
  | none => rfl
  | some entry => cases json : isJsonMedia entry.1 <;> simp [json]

theorem Content.schema_relevant (content : Content) : content.relevant.schema = content.schema := by
  rw [Content.schema, Content.preferred_relevant, Content.schema]

theorem RequestBody.schema_relevant (body : RequestBody) :
    body.relevant.content.schema = body.content.schema :=
  body.content.schema_relevant

theorem Response.schema_relevant (response : Response) :
    response.relevant.content.schema = response.content.schema :=
  response.content.schema_relevant

namespace Resolver

def relevant (resolver : Resolver) : Resolver :=
  ⟨resolver.components.relevant, resolver.schemas⟩

variable (resolver : Resolver)

theorem resolve_relevant (path : String) : resolver.relevant.resolve path = resolver.resolve path := by
  have contains (target : Target) : resolver.relevant.contains target = resolver.contains target := by
    unfold contains
    split
    · rfl
    · exact Entries.has_mapValues _ _ _
    · rfl
    · exact Entries.has_mapValues _ _ _
  simp only [resolve, contains]

theorem requestBody_relevant (item : Referable RequestBody) :
    resolver.relevant.requestBody (item.map .relevant) =
      RequestBody.relevant <$> resolver.requestBody item :=
  follow_map _ _ _ _ _

theorem response_relevant (item : Referable Response) :
    resolver.relevant.response (item.map .relevant) = Response.relevant <$> resolver.response item :=
  follow_map _ _ _ _ _

end Resolver
end TypedClient
