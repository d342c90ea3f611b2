import TypedClient.Command.Settings

/-! Reading of command lines. -/
namespace TypedClient

inductive Request where
  | version
  | overview
  | overviewOfGenerate
  | overviewOfHelp
  /-- Nothing: the overview is shown unasked. -/
  | idle
  | generate (flags : Flags)
  deriving DecidableEq

/-- The options of `generate` that take a value. -/
inductive Slot where
  | input
  | output
  | flavor
  | config
  deriving DecidableEq

namespace Slot

def ofLong? : String → Option Slot
  | "input" => some .input
  | "output" => some .output
  | "flavor" => some .flavor
  | "config" => some .config
  | _ => none

def ofShort? : Char → Option Slot
  | 'i' => some .input
  | 'o' => some .output
  | _ => none

end Slot

/-- How a word of a command line reads before it is known what it belongs to. -/
inductive Word where
  | escape
  | long (name : String) (attached : Option String)
  | short (name : Char) (rest : List Char)
  | plain (text : String)
  deriving DecidableEq

/-- A dash by itself is a plain text. -/
def Word.ofText (text : String) : Word :=
  match text.toList with
  | ['-', '-'] => .escape
  | '-' :: '-' :: body =>
    match body.span (· != '=') with
    | (name, []) => .long (String.ofList name) none
    | (name, _ :: value) => .long (String.ofList name) (some (String.ofList value))
  | '-' :: name :: rest => .short name rest
  | _ => .plain text

namespace Flags

def setOnce {α : Type} (held : Option α) (value : Option α) : Option (Option α) :=
  match held, value with
  | none, some value => some (some value)
  | _, _ => none

def path? (text : String) : Option String :=
  if text.isEmpty then none else some text

/-- An option is given at most once, and a path is not empty. -/
def set (flags : Flags) (slot : Slot) (text : String) : Option Flags :=
  match slot with
  | .input => (setOnce flags.input (path? text)).map ({ flags with input := · })
  | .output => (setOnce flags.output (path? text)).map ({ flags with output := · })
  | .flavor => (setOnce flags.flavor (Flavor.parse? text)).map ({ flags with flavor := · })
  | .config => (setOnce flags.config (path? text)).map ({ flags with config := · })

end Flags

namespace Request

/-- The arguments after `generate`. An option that still waits for its value takes the next plain
argument and nothing else. -/
def ofFlags (flags : Flags) (waiting : Option Slot) : List String → Option Request
  | [] => if waiting.isSome then none else some (.generate flags)
  | text :: rest =>
    match waiting, Word.ofText text with
    | some slot, .plain value => do ofFlags (← flags.set slot value) none rest
    | some _, _ => none
    | none, .long "help" none => some .overviewOfGenerate
    | none, .long "aggregate" none =>
      if flags.aggregate then none else ofFlags { flags with aggregate := true } none rest
    | none, .long name attached => do
      let slot ← Slot.ofLong? name
      match attached with
      | some value => ofFlags (← flags.set slot value) none rest
      | none => ofFlags flags (some slot) rest
    | none, .short 'h' _ => some .overviewOfGenerate
    | none, .short name attached => do
      let slot ← Slot.ofShort? name
      match attached with
      | [] => ofFlags flags (some slot) rest
      | '=' :: value => ofFlags (← flags.set slot (String.ofList value)) none rest
      | value => ofFlags (← flags.set slot (String.ofList value)) none rest
    | none, .escape => if rest.isEmpty then some (.generate flags) else none
    | none, .plain _ => none

def ofTopics : List String → Option Request
  | [] => some .overview
  | ["generate"] => some .overviewOfGenerate
  | ["help"] => some .overviewOfHelp
  | _ => none

/-- What the arguments of a call ask for, if they can be read. -/
def ofArguments : List String → Option Request
  | [] => some .idle
  | "generate" :: rest => ofFlags {} none rest
  | "help" :: topics => ofTopics topics
  | text :: rest =>
    match Word.ofText text with
    | .long "help" none | .short 'h' _ => some .overview
    | .long "version" none | .short 'V' _ => some .version
    | .escape => if rest.isEmpty then some .idle else none
    | _ => none

end Request
end TypedClient
