import TypedClient.Command.Path

/-! Access to files: reading and writing whole texts, and making directories. -/
namespace TypedClient

inductive FileFault where
  | missing
  | occupied
  | notDirectory
  | isDirectory
  | nameTooLong
  | nulInName
  | notText
  | other (text : String)
  deriving DecidableEq

def FileFault.message : FileFault → String
  | .missing => "No such file or directory (os error 2)"
  | .occupied => "File exists (os error 17)"
  | .notDirectory => "Not a directory (os error 20)"
  | .isDirectory => "Is a directory (os error 21)"
  | .nameTooLong => "File name too long (os error 36)"
  | .nulInName => "file name contained an unexpected NUL byte"
  | .notText => "stream did not contain valid UTF-8"
  | .other text => text

class FileStore (m : Type → Type) where
  readText (path : String) : m (Except FileFault String)
  isFile (path : String) : m Bool
  isDirectory (path : String) : m Bool
  makeDirectory (path : String) : m (Except FileFault Unit)
  /-- Puts a text in place of what a file holds, and makes the file if there is none. -/
  writeText (path text : String) : m (Except FileFault Unit)

namespace FileStore

variable {m : Type → Type} [Monad m] [FileStore m]

/-- Makes the first directory of a list, and if it has no place yet, first those after it. -/
def makeFirst : List String → m (Except FileFault Unit)
  | [] => pure (.ok ())
  | path :: above => do
    match ← makeDirectory path with
    | .ok () => pure (.ok ())
    | .error .missing =>
      match ← makeFirst above with
      | .error fault => pure (.error fault)
      | .ok () => settle path (← makeDirectory path)
    | .error fault => settle path (.error fault)
where
  /-- A directory that is there already need not be made. -/
  settle (path : String) (made : Except FileFault Unit) : m (Except FileFault Unit) := do
    match made with
    | .ok () => pure (.ok ())
    | .error fault => if ← isDirectory path then pure (.ok ()) else pure (.error fault)

def makeDirectories (path : String) : m (Except FileFault Unit) :=
  makeFirst (Path.ancestors path)

/-- Writes a text to a file in a directory that is made if need be. -/
def deliver (path text : String) : m (Except FileFault Unit) := do
  match ← makeDirectories ((Path.parent? path).getD "") with
  | .error fault => pure (.error fault)
  | .ok () => writeText path text

end FileStore
end TypedClient
