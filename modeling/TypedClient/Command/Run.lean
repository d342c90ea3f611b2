import TypedClient.Command.Overview
import TypedClient.Document.Text

/-! Runs of the command. -/
namespace TypedClient

inductive Outcome where
  | refused
  | told (text : String)
  | failed (failure : Failure) (events : List Event)
  | printed (client : String) (events : List Event)
  | written (path : String) (events : List Event)

namespace Outcome

def exitCode : Outcome → Nat
  | .refused => 2
  | .failed .. => 1
  | _ => 0

def output : Outcome → String
  | .told text => text
  | .printed client _ => client
  | _ => ""

def complaint : Outcome → String
  | .failed failure _ => failure.message
  | _ => ""

def events : Outcome → List Event
  | .failed _ events | .printed _ events | .written _ events => events
  | _ => []

end Outcome

/-- A document is YAML if its path says so, and JSON otherwise. -/
def isYamlPath (path : String) : Bool :=
  match (Path.extension? path).map String.toLower with
  | some "yaml" | some "yml" => true
  | _ => false

def Document.ofFile (path text : String) : Except Malformed Document :=
  if isYamlPath path then ofYaml text else ofJson text

namespace Command

variable {m : Type → Type} [Monad m] [FileStore m]

def settings (flags : Flags) : ExceptT Failure m Settings := do
  let config ← Config.discover flags.config
  ExceptT.mk (pure (Settings.resolve flags config))

def load (path : String) : ExceptT Failure m Document := do
  let text ← FileStore.read path
  ExceptT.mk (pure ((Document.ofFile path text).mapError .malformed))

def report (generation : Generation) (settings : Settings) (path : String) : Event :=
  .clientWritten path generation.types.size generation.components.length
    generation.types.collisions.length settings.flavor.text

/-- Prints or writes a client. The last thing done is the only one that can change a file. -/
def deliver (generation : Generation) (settings : Settings) (events : List Event) : m Outcome := do
  let client := generation.render settings.renderer settings.mode
  match settings.output with
  | none => pure (.printed client events)
  | some path =>
    match ← FileStore.deliver path client with
    | .error fault => pure (.failed (.unwritable path fault) events)
    | .ok () => pure (.written path (events ++ [report generation settings path]))

def generate (flags : Flags) : m Outcome := do
  let prepared : ExceptT Failure m (Settings × Document) := do
    let settings ← settings flags
    return (settings, ← load settings.input)
  match ← prepared.run with
  | .error failure => pure (.failed failure [])
  | .ok (settings, document) =>
    let run := Generation.ofDocument settings.renderer.naming document
    match run.outcome with
    | .error cause => pure (.failed (.reference cause) run.events)
    | .ok generation => deliver generation settings run.events

def answer : Request → m Outcome
  | .version => pure (.told Request.versionText)
  | .overview => pure (.told Request.overviewText)
  | .overviewOfGenerate => pure (.told Request.generateText)
  | .overviewOfHelp => pure (.told Request.helpText)
  | .idle => pure (.told (Request.overviewText ++ "\n"))
  | .generate flags => generate flags

def run (arguments : List String) : m Outcome :=
  match Request.ofArguments arguments with
  | none => pure .refused
  | some request => answer request

end Command
end TypedClient
