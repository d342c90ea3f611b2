import TypedClient.Document.Basic
import TypedClient.Registry
import TypedClient.Route

/-! What a renderer is told about one operation. -/
namespace TypedClient

structure PathParam where
  name : String
  identifier : String
  required : Bool := true
  type : TypeExpr

structure Descriptor where
  name : String
  verb : Verb
  path : String
  /-- The route with interpolated identifiers, without a trailing identifier. -/
  route : String
  pathParams : List PathParam := []
  /-- The placeholder that ends the route of a deletion. -/
  trailingId : Option PathParam := none
  queryParamsType : Option String := none
  queryRequired : Bool := false
  headerParams : List Parameter := []
  /-- `void` without a body. -/
  bodyType : TypeExpr := .scalar .void
  bodyRequired : Bool := false
  /-- `void` if no success response has content. -/
  responseType : TypeExpr := .scalar .void
  /-- `unknown` if no error response has content. -/
  errorType : TypeExpr := .scalar .unknown
  doc : String := ""
  tags : List String := []
  deprecated : Bool := false

namespace Descriptor

def queryType (descriptor : Descriptor) : TypeExpr :=
  match descriptor.queryParamsType with
  | some name => .named name
  | none => .any

def hasBody (descriptor : Descriptor) : Bool :=
  !descriptor.bodyType.same (.scalar .void)

def allPathParams (descriptor : Descriptor) : List PathParam :=
  descriptor.pathParams ++ descriptor.trailingId.toList

end Descriptor
end TypedClient
