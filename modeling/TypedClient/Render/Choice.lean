import TypedClient.Notation.Json
import TypedClient.Render.Flavor

/-! Flavors and modes from JSON texts. -/
namespace TypedClient
open Notation

def chosenInJson? (text : String) : Option String :=
  let parsed := Json.parse text
  if parsed.complete then parsed.root.choice? else none

def Flavor.ofJson? (text : String) : Option Flavor :=
  (chosenInJson? text).bind Flavor.parse?

def RenderMode.ofJson? (text : String) : Option RenderMode :=
  (chosenInJson? text).bind RenderMode.parse?

end TypedClient
