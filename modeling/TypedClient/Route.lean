import TypedClient.Identifier

/-! Route templates: static text and placeholders in braces. -/
namespace TypedClient

inductive Verb where
  | get
  | put
  | post
  | patch
  | delete
  deriving DecidableEq

namespace Verb

/-- The methods under which operations are synthesized. -/
def ofKey? : String → Option Verb
  | "get" => some .get
  | "put" => some .put
  | "post" => some .post
  | "patch" => some .patch
  | "delete" => some .delete
  | _ => none

def text : Verb → String
  | .get => "GET"
  | .put => "PUT"
  | .post => "POST"
  | .patch => "PATCH"
  | .delete => "DELETE"

def title : Verb → String
  | .get => "Get"
  | .put => "Put"
  | .post => "Post"
  | .patch => "Patch"
  | .delete => "Delete"

/-- A query reads and every other verb mutates. -/
def isQuery (verb : Verb) : Bool :=
  verb == .get

end Verb

namespace Route

inductive Part where
  | static (text : String)
  | placeholder (name : String)
  deriving DecidableEq

def Part.ofText (text : List Char) : List Part :=
  if text.isEmpty then [] else [.static (String.ofList text)]

mutual

def partsOutside (text : List Char) : List Char → List Part
  | [] => Part.ofText text
  | '\x7b' :: rest => partsInside text [] rest
  | c :: rest => partsOutside (text ++ [c]) rest

/-- A placeholder that is never closed is literal text. -/
def partsInside (text name : List Char) : List Char → List Part
  | [] => Part.ofText (text ++ '\x7b' :: name)
  | '\x7d' :: rest => Part.ofText text ++ .placeholder (String.ofList name) :: partsOutside [] rest
  | c :: rest => partsInside text (name ++ [c]) rest

end

def parse (route : String) : List Part :=
  partsOutside [] route.toList

def segments (route : String) : List String :=
  ((route.toList.splitOn '/').filter fun segment => !segment.isEmpty).map String.ofList

/-- The words of a static part, or `By` and the name of a placeholder. -/
def Part.title : Part → String
  | .static content =>
    String.ofList ((content.toList.splitOnP fun c => !c.isAlphanum).flatMap Text.capitalize)
  | .placeholder name => "By" ++ Identifier.ofTypeKey name

/-- `GET /pets/{petId}` is named `GetPetsByPetId`. -/
def defaultName (verb : Verb) (route : String) : String :=
  let title := String.join (((segments route).flatMap parse).map Part.title)
  verb.title ++ if title.isEmpty then "Root" else title

def endsWithPlaceholder (parts : List Part) : Bool :=
  match parts.reverse with
  | .placeholder _ :: .static before :: _ => before.toList.getLast? == some '/'
  | _ => false

/-- Each placeholder becomes an interpolation of the identifier at its place. -/
def interpolate : List Part → List String → String
  | [], _ => ""
  | .static content :: rest, identifiers => content ++ interpolate rest identifiers
  | .placeholder name :: rest, [] => "$\x7b" ++ name ++ "\x7d" ++ interpolate rest []
  | .placeholder _ :: rest, identifier :: later =>
    "$\x7b" ++ identifier ++ "\x7d" ++ interpolate rest later

end Route
end TypedClient
