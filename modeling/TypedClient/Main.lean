import TypedClient.Command.Run

/-! The command, run on the files of the system. -/
namespace TypedClient

/-- The number of the system's cause for a failure, which may come negated. -/
def systemCode? : IO.Error → Option UInt32
  | .alreadyExists _ code _ | .inappropriateType _ code _ | .invalidArgument _ code _
  | .noFileOrDirectory _ code _ => some (min code (-code))
  | _ => none

def faultOf (cause : IO.Error) : FileFault :=
  match systemCode? cause with
  | some 2 => .missing
  | some 17 => .occupied
  | some 20 => .notDirectory
  | some 21 => .isDirectory
  | some 36 => .nameTooLong
  | _ => .other (toString cause)

def attempt {α : Type} (path : String) (access : IO α) : IO (Except FileFault α) :=
  if path.toList.contains '\x00' then pure (.error .nulInName)
  else do
    match ← access.toBaseIO with
    | .ok value => pure (.ok value)
    | .error cause => pure (.error (faultOf cause))

def readFile (path : String) : IO (Except FileFault String) := do
  return match ← attempt path (IO.FS.readBinFile path) with
    | .error fault => .error fault
    | .ok bytes =>
      match String.fromUTF8? bytes with
      | some text => .ok text
      | none => .error .notText

instance : FileStore IO where
  readText path := readFile path
  isFile path := do
    return match ← readFile path with
      | .ok _ | .error .notText => true
      | .error _ => false
  isDirectory path := do
    return match ← readFile path with
      | .error .isDirectory => true
      | _ => false
  makeDirectory path := attempt path (IO.FS.createDir path)
  writeText path text := attempt path (IO.FS.writeFile path text)

def Event.line (event : Event) : String :=
  let level := match event.level with
    | .debug => "DEBUG"
    | .info => "INFO"
    | .warn => "WARN"
  " ".intercalate (level :: event.message ::
    event.details.map fun (name, value) => name ++ "=" ++ value)

end TypedClient

open TypedClient

def main (arguments : List String) : IO UInt32 := do
  let outcome ← Command.run (m := IO) arguments
  for event in outcome.events do
    unless event.level == .debug do
      IO.eprintln event.line
  match outcome with
  | .refused => IO.eprintln "unusable arguments; see `apigen --help`"
  | .failed .. => IO.eprintln outcome.complaint
  | _ => IO.print outcome.output
  return outcome.exitCode.toUInt32
