import TypedClient.Render.QueryHooks

/-! The flavors of clients. -/
namespace TypedClient

inductive Flavor where
  | fetch
  | reactQuery
  deriving DecidableEq

namespace Flavor

def text : Flavor → String
  | .fetch => "fetch"
  | .reactQuery => "react-query"

def parse? : String → Option Flavor
  | "fetch" => some .fetch
  | "react-query" => some .reactQuery
  | _ => none

def unknownMessage (name : String) : String :=
  "unknown flavor `" ++ name ++ "` (expected `fetch` or `react-query`)"

def renderer : Flavor → Renderer
  | .fetch => Fetch.renderer
  | .reactQuery => QueryHooks.renderer

end Flavor
end TypedClient
