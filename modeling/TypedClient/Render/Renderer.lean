import TypedClient.Generation
import TypedClient.Script.Declarations

/-! Renderers, and the text of a whole generation. -/
namespace TypedClient

structure Renderer where
  operation : Descriptor → String
  operations : List Descriptor → String :=
    fun descriptors => String.intercalate "\n" (descriptors.map operation)
  types : List Definition → String :=
    fun definitions => String.intercalate "\n" (definitions.map Definition.text)
  naming : Naming := Naming.none
  preamble : Option String := none

/-- The same renderer with another text in front. -/
def Renderer.withPreamble (renderer : Renderer) (preamble : String) : Renderer :=
  { renderer with preamble := some preamble }

inductive RenderMode where
  | perOperation
  | aggregate
  deriving DecidableEq

namespace RenderMode

def text : RenderMode → String
  | .perOperation => "per-operation"
  | .aggregate => "aggregate"

def parse? : String → Option RenderMode
  | "per-operation" => some .perOperation
  | "aggregate" => some .aggregate
  | _ => none

end RenderMode

namespace Generation

def trimEnd (text : String) : String :=
  String.ofList (Text.trimEnd text.toList)

def operationsText (components : List Descriptor) (renderer : Renderer) : RenderMode → String
  | .perOperation =>
    String.intercalate "\n\n" (components.map fun descriptor =>
      trimEnd (renderer.operation descriptor))
  | .aggregate => renderer.operations components

/-- Preamble, declarations and operations, as far as there are any. -/
def sections (generation : Generation) (renderer : Renderer) (mode : RenderMode) : List String :=
  renderer.preamble.toList ++
    (if generation.types.definitions.isEmpty then []
      else [renderer.types generation.types.definitions]) ++
    (if generation.components.isEmpty then []
      else [operationsText generation.components renderer mode])

def render (generation : Generation) (renderer : Renderer) (mode : RenderMode) : String :=
  String.intercalate "\n\n"
    (((generation.sections renderer mode).map trimEnd).filter (!·.isEmpty)) ++ "\n"

end Generation

def Document.generate (document : Document) (renderer : Renderer) (mode : RenderMode) :
    Synthesis String := do
  let generation ← Generation.ofDocument renderer.naming document
  pure (generation.render renderer mode)

end TypedClient
