import TypedClient.Document.Reading
import TypedClient.Notation.Json
import TypedClient.Notation.Yaml.Tree

/-! Documents and parts of documents from texts. -/
namespace TypedClient
open Notation

namespace Document

/-- What was read before the text breaks off is checked first. -/
def ofParsed (parsed : Parsed) : Except Malformed Document := do
  let document ← (read .expected parsed.root).run' parsed.jumps
  if parsed.complete then .ok document else .error .document

def ofJson (text : String) : Except Malformed Document :=
  ofParsed (Json.parse text)

def ofYaml (text : String) : Except Malformed Document :=
  ofParsed (Yaml.parse text)

end Document

def Schema.ofJson (text : String) : Except Malformed Schema :=
  let parsed := Json.parse text
  match (Schema.read parsed.root .expected).run' parsed.jumps with
  | some schema => if parsed.complete then .ok schema else .error .document
  | none => .error .document

def Content.ofJson (text : String) : Except Malformed Content :=
  let parsed := Json.parse text
  match (Content.read .expected parsed.root).run' parsed.jumps with
  | some content => if parsed.complete then .ok content else .error .document
  | none => .error .document

end TypedClient
