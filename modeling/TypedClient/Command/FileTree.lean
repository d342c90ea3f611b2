import TypedClient.Command.FileStore

/-! A tree of files held as a value. Locations are lists of names from the root. -/
namespace TypedClient

inductive FileContent where
  | text (value : String)
  | binary (bytes : List UInt8)
  deriving DecidableEq

/-- Bytes are a text if they are well-formed UTF-8. -/
def FileContent.ofBytes (bytes : List UInt8) : FileContent :=
  match String.fromUTF8? ⟨bytes.toArray⟩ with
  | some value => .text value
  | none => .binary bytes

inductive FileNode where
  | directory
  | file (content : FileContent)
  deriving DecidableEq

structure FileTree where
  nodes : List (List String × FileNode) := []
  workingDirectory : List String := []

namespace FileTree

/-- The root is a directory in every tree. -/
def node? (tree : FileTree) (location : List String) : Option FileNode :=
  if location.isEmpty then some .directory
  else (tree.nodes.find? (·.1 == location)).map (·.2)

def place (tree : FileTree) (location : List String) (node : FileNode) : FileTree :=
  { tree with nodes := (location, node) :: tree.nodes.filter (·.1 != location) }

theorem node?_place_self (tree : FileTree) {location : List String} (node : FileNode)
    (inside : location ≠ []) : (tree.place location node).node? location = some node := by
  simp [node?, place, inside]

theorem node?_place_other (tree : FileTree) {location other : List String} (node : FileNode)
    (different : other ≠ location) : (tree.place location node).node? other = tree.node? other := by
  have kept : (tree.nodes.filter (·.1 != location)).find? (·.1 == other) =
      tree.nodes.find? (·.1 == other) := by
    induction tree.nodes with
    | nil => rfl
    | cons entry rest ih =>
      by_cases held : entry.1 = location
      · have absent : (entry.1 == other) = false := by
          simpa [held] using fun same => different same.symm
        simp [held, ← ih, show (location == other) = false by simpa [held] using absent]
      · by_cases found : entry.1 = other
        · simp [found, show ¬other = location from different]
        · simp [held, found, ih]
  simp [node?, place, kept, show (location == other) = false by
    simpa using fun same => different same.symm]

def placeAbove (tree : FileTree) (location : List String) : FileTree :=
  (List.range location.length).foldl (fun tree depth =>
    let above := location.take depth
    if (tree.node? above).isSome then tree else tree.place above .directory) tree

/-- The bounds on a path: its bytes together, and those of each name. -/
def pathLimit : Nat := 4095

def nameLimit : Nat := 255

/-- The names on a path; a slash at the end demands a directory, as a last `.` does. -/
def namesOn (path : String) : List String :=
  ((Path.segments path.toList).filter (!·.isEmpty)).map String.ofList

def endsInSlash (path : String) : Bool :=
  path.toList.getLast? == some '/'

/-- Where a path starts, if it can be a path at all. -/
def start (tree : FileTree) (path : String) : Except FileFault (List String) :=
  if path.toList.contains '\x00' then .error .nulInName
  else if path.isEmpty then .error .missing
  else if pathLimit < path.utf8ByteSize then .error .nameTooLong
  else .ok (if Path.isAbsolute path then [] else tree.workingDirectory)

def step (tree : FileTree) (here : List String) (name : String) :
    Except FileFault (List String) :=
  if tree.node? here != some .directory then .error .notDirectory
  else if name == "." then .ok here
  else if name == ".." then .ok here.dropLast
  else if nameLimit < name.utf8ByteSize then .error .nameTooLong
  else if (tree.node? (here ++ [name])).isSome then .ok (here ++ [name])
  else .error .missing

def walk (tree : FileTree) (here : List String) : List String → Except FileFault (List String)
  | [] => .ok here
  | name :: rest => do tree.walk (← tree.step here name) rest

def find (tree : FileTree) (path : String) : Except FileFault FileNode := do
  let start ← tree.start path
  let names := namesOn path ++ if endsInSlash path then ["."] else []
  let location ← tree.walk start names
  match tree.node? location with
  | some node => .ok node
  | none => .error .missing

/-- Where something new would stand: none for a path to a directory that is there. -/
def site (tree : FileTree) (path : String) : Except FileFault (Option (List String)) := do
  let start ← tree.start path
  match (namesOn path).reverse with
  | [] => .ok none
  | name :: above =>
    let here ← tree.walk start above.reverse
    if tree.node? here != some .directory then .error .notDirectory
    else .ok (if name == "." || name == ".." then none else some (here ++ [name]))

def isOverlong (location : List String) : Bool :=
  location.getLast?.any (nameLimit < ·.utf8ByteSize)

def readText (tree : FileTree) (path : String) : Except FileFault String := do
  match ← tree.find path with
  | .directory => .error .isDirectory
  | .file (.text value) => .ok value
  | .file (.binary _) => .error .notText

def isFile (tree : FileTree) (path : String) : Bool :=
  match tree.find path with
  | .ok (.file _) => true
  | _ => false

def isDirectory (tree : FileTree) (path : String) : Bool :=
  match tree.find path with
  | .ok .directory => true
  | _ => false

def makeDirectory (tree : FileTree) (path : String) : Except FileFault FileTree := do
  match ← tree.site path with
  | none => .error .occupied
  | some location =>
    if isOverlong location then .error .nameTooLong
    else if (tree.node? location).isSome then .error .occupied
    else .ok (tree.place location .directory)

/-- A path that demands a directory is refused as one before its name is looked at. -/
def writeText (tree : FileTree) (path text : String) : Except FileFault FileTree := do
  match ← tree.site path with
  | none => .error .isDirectory
  | some location =>
    if endsInSlash path then .error .isDirectory
    else if isOverlong location then .error .nameTooLong
    else if tree.node? location == some .directory then .error .isDirectory
    else .ok (tree.place location (.file (.text text)))

/-- Makes a change, or leaves the tree as it is. -/
def attempt (change : FileTree → Except FileFault FileTree) :
    StateM FileTree (Except FileFault Unit) := fun tree =>
  match change tree with
  | .ok changed => (.ok (), changed)
  | .error fault => (.error fault, tree)

instance : FileStore (StateM FileTree) where
  readText path := fun tree => (tree.readText path, tree)
  isFile path := fun tree => (tree.isFile path, tree)
  isDirectory path := fun tree => (tree.isDirectory path, tree)
  makeDirectory path := attempt (·.makeDirectory path)
  writeText path text := attempt (·.writeText path text)

end FileTree
end TypedClient
