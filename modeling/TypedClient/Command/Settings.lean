import TypedClient.Command.Config

/-! What a run is told: flags, over what the config file sets. -/
namespace TypedClient

structure Flags where
  input : Option String := none
  output : Option String := none
  flavor : Option Flavor := none
  aggregate : Bool := false
  config : Option String := none
  deriving DecidableEq

structure Settings where
  input : String
  output : Option String
  flavor : Flavor
  mode : RenderMode
  preamble : Option String
  deriving DecidableEq

namespace Settings

/-- A flag goes before the config file. The preamble has no flag. -/
def resolve (flags : Flags) (config : Config) : Except Failure Settings :=
  match flags.input <|> config.input with
  | none => .error .missingInput
  | some input => .ok {
      input
      output := flags.output <|> config.output
      flavor := (flags.flavor <|> config.flavor).getD .fetch
      mode := if flags.aggregate then .aggregate else config.mode.getD .perOperation
      preamble := config.preamble }

def renderer (settings : Settings) : Renderer :=
  match settings.preamble with
  | some preamble => settings.flavor.renderer.withPreamble preamble
  | none => settings.flavor.renderer

end Settings
end TypedClient
