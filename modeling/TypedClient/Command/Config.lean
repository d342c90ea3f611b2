import TypedClient.Command.Failure
import TypedClient.Notation.Toml
import TypedClient.Render.Flavor

/-! The config file: what it may set, and where it is looked for. -/
namespace TypedClient
open Notation

structure Config where
  input : Option String := none
  output : Option String := none
  flavor : Option Flavor := none
  mode : Option RenderMode := none
  preamble : Option String := none
  deriving DecidableEq

namespace Config

inductive Mark where
  | named (text : String)
  /-- A table with one name in it, over nothing. -/
  | boxed (name : String)
  | opened
  /-- A name over nothing, under the head of the table. -/
  | filled (name : String)
  /-- The head of a table within the table. -/
  | openedAt (name : String)
  deriving DecidableEq

/-- Under a table's head stand only names over nothing, and nothing lies deeper. -/
def markOf (table : List String) : Toml.Line → Option (String × Mark)
  | .header [key] => some (key, .opened)
  | .header [key, name] => some (key, .openedAt name)
  | .header _ => none
  | .entry path value =>
    match table, path, value with
    | [], [key], .text text => some (key, .named text)
    | [], [key], .boxed name => some (key, .boxed name)
    | [], [key, name], .hollow => some (key, .boxed name)
    | [key], [name], .hollow => some (key, .filled name)
    | _, _, _ => none

def tableAfter (table : List String) : Toml.Line → List String
  | .header path => path
  | .entry .. => table

def marksUnder (table : List String) : List Toml.Line → Option (List (String × Mark))
  | [] => some []
  | line :: rest => do
    let mark ← markOf table line
    (marksUnder (tableAfter table line) rest).map (mark :: ·)

def keys : List String :=
  ["input", "output", "flavor", "mode", "preamble"]

def marksOn (key : String) (marks : List (String × Mark)) : List Mark :=
  (marks.filter (·.1 == key)).map (·.2)

/-- A text is set once or not at all. -/
def textSetting : List Mark → Option (Option String)
  | [] => some none
  | [.named text] => some (some text)
  | _ => none

/-- A choice is its name, or a table with that name in it, over nothing. -/
def nameSetting : List Mark → Option (Option String)
  | [] => some none
  | [.named name] | [.boxed name] | [.openedAt name]
  | [.opened, .filled name] | [.opened, .openedAt name] | [.openedAt name, .opened] =>
    some (some name)
  | _ => none

def choiceSetting {α : Type} (parse? : String → Option α) (marks : List Mark) :
    Option (Option α) := do
  match ← nameSetting marks with
  | none => some none
  | some name => (parse? name).map some

/-- Keys that mean nothing are refused. -/
def ofToml (text : String) : Option Config := do
  let marks ← marksUnder [] (← Toml.parse text)
  guard (marks.all fun (key, _) => keys.contains key)
  some {
    input := ← textSetting (marksOn "input" marks)
    output := ← textSetting (marksOn "output" marks)
    flavor := ← choiceSetting Flavor.parse? (marksOn "flavor" marks)
    mode := ← choiceSetting RenderMode.parse? (marksOn "mode" marks)
    preamble := ← textSetting (marksOn "preamble" marks) }

/-- Relative paths start from a base. -/
def under (config : Config) (base : String) : Config :=
  { config with
    input := config.input.map (Path.join base)
    output := config.output.map (Path.join base) }

def defaultPath : String := "apigen.toml"

variable {m : Type → Type} [Monad m] [FileStore m]

/-- Paths in a config file start from the directory that holds it. -/
def load (path : String) : ExceptT Failure m Config := do
  match ofToml (← FileStore.read path) with
  | none => throw (.badConfig path)
  | some config => pure (config.under ((Path.parent? path).getD ""))

/-- A config file that is not named need not be there. -/
def discover : Option String → ExceptT Failure m Config
  | some path => load path
  | none => do
    if ← FileStore.isFile (m := m) defaultPath then load defaultPath else pure {}

end Config
end TypedClient
