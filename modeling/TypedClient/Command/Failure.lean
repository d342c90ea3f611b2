import TypedClient.Command.FileStore
import TypedClient.Document.Reading
import TypedClient.Reference

/-! Why no client was generated. -/
namespace TypedClient

inductive Failure where
  | unreadable (path : String) (fault : FileFault)
  | unwritable (path : String) (fault : FileFault)
  | badConfig (path : String)
  | missingInput
  | malformed (cause : Malformed)
  | reference (cause : ReferenceError)
  deriving DecidableEq

def Failure.message : Failure → String
  | .unreadable path fault => "failed to read " ++ path ++ ": " ++ fault.message
  | .unwritable path fault => "failed to write " ++ path ++ ": " ++ fault.message
  | .badConfig path => "invalid config " ++ path
  | .missingInput => "no input document: pass --input or set `input` in apigen.toml"
  | .malformed cause => cause.message
  | .reference cause => cause.message

def FileStore.read {m : Type → Type} [Monad m] [FileStore m] (path : String) :
    ExceptT Failure m String :=
  ExceptT.mk do return (← readText path).mapError (.unreadable path)

end TypedClient
