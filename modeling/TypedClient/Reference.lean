import TypedClient.Document.Basic
import TypedClient.Identifier

/-! References to components, and the names of the types that they stand for. -/
namespace TypedClient

inductive ReferenceError where
  | unsupported (reference : String)
  | dangling (reference : String)
  deriving DecidableEq

def ReferenceError.message : ReferenceError → String
  | .unsupported reference =>
    "unsupported reference `" ++ reference ++
      "`: only #/components/\x7bschemas,responses,parameters,requestBodies\x7d/<key> are supported"
  | .dangling reference => "dangling reference `" ++ reference ++ "`: no such component"

inductive Root where
  | schema
  | response
  | parameter
  | requestBody
  deriving DecidableEq

namespace Root

def all : List Root := [.schema, .response, .parameter, .requestBody]

def stem : Root → String
  | .schema => "#/components/schemas/"
  | .response => "#/components/responses/"
  | .parameter => "#/components/parameters/"
  | .requestBody => "#/components/requestBodies/"

def suffix : Root → String
  | .schema => ""
  | .response => "Response"
  | .parameter => "Parameter"
  | .requestBody => "RequestBody"

def typeName (root : Root) (key : String) : String :=
  Identifier.ofTypeKey key ++ root.suffix

def key? (root : Root) (reference : String) : Option String :=
  (root.stem.toList.isPrefixOf? reference.toList).map String.ofList

end Root

structure Target where
  root : Root
  key : String
  deriving DecidableEq

def Target.typeName (target : Target) : String :=
  target.root.typeName target.key

/-- A reference is the stem of a root and a key without a slash. -/
def Target.parse (reference : String) : Except ReferenceError Target :=
  match Root.all.findSome? fun root => (root.key? reference).map (Target.mk root) with
  | some target =>
    if target.key.isEmpty || target.key.toList.contains '/' then .error (.unsupported reference)
    else .ok target
  | none => .error (.unsupported reference)

/-- The components of a document, with the schemas that synthesis is to see. -/
structure Resolver where
  components : Components
  schemas : List (String × Schema)

/-- The number of steps after which a chain of references counts as a cycle. -/
def maxReferenceSteps : Nat := 32

def follow {α : Type} (root : Root) (table : List (String × Referable α)) :
    Nat → Referable α → Except ReferenceError α
  | 0, .reference path => .error (.dangling path)
  | 0, .inline _ => .error (.dangling "")
  | _ + 1, .inline value => .ok value
  | steps + 1, .reference path => do
    let target ← Target.parse path
    if target.root = root then
      match Entries.get? target.key table with
      | some next => follow root table steps next
      | none => .error (.dangling path)
    else .error (.unsupported path)

namespace Resolver

def contains (resolver : Resolver) (target : Target) : Bool :=
  match target.root with
  | .schema => Entries.has target.key resolver.schemas
  | .response => Entries.has target.key resolver.components.responses
  | .parameter => Entries.has target.key resolver.components.parameters
  | .requestBody => Entries.has target.key resolver.components.requestBodies

def resolve (resolver : Resolver) (reference : String) : Except ReferenceError String := do
  let target ← Target.parse reference
  if resolver.contains target then .ok target.typeName else .error (.dangling reference)

def schema (resolver : Resolver) (reference : String) : Except ReferenceError Schema := do
  let target ← Target.parse reference
  if target.root = .schema then
    match Entries.get? target.key resolver.schemas with
    | some schema => .ok schema
    | none => .error (.dangling reference)
  else .error (.unsupported reference)

def parameter (resolver : Resolver) (item : Referable Parameter) :
    Except ReferenceError Parameter :=
  follow .parameter resolver.components.parameters maxReferenceSteps item

def requestBody (resolver : Resolver) (item : Referable RequestBody) :
    Except ReferenceError RequestBody :=
  follow .requestBody resolver.components.requestBodies maxReferenceSteps item

def response (resolver : Resolver) (item : Referable Response) : Except ReferenceError Response :=
  follow .response resolver.components.responses maxReferenceSteps item

end Resolver
end TypedClient
