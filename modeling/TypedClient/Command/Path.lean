/-! Paths as texts: the parts between slashes, of which empty ones and `.` lead nowhere. -/
namespace TypedClient.Path

def segments : List Char → List (List Char)
  | [] => [[]]
  | '/' :: rest => [] :: segments rest
  | c :: rest =>
    match segments rest with
    | [] => [[c]]
    | segment :: later => (c :: segment) :: later

def isIdle (segment : List Char) : Bool :=
  segment.isEmpty || segment == ['.']

/-- The root or the leading `.` of a path, and what follows it. -/
def anchored : List Char → List Char × List Char
  | '/' :: rest => (['/'], rest)
  | ['.'] => (['.'], [])
  | '.' :: '/' :: rest => (['.'], '/' :: rest)
  | text => ([], text)

/-- A path from its anchor and its segments, the last one first. -/
def assemble (anchor : List Char) (segments : List (List Char)) : String :=
  String.ofList (anchor ++ List.intercalate ['/'] segments.reverse)

/-- The segments of a path that has none but idle ones after its anchor are empty. -/
def reversed (body : List Char) : List (List Char) :=
  (segments body).reverse.dropWhile isIdle

def parent? (path : String) : Option String :=
  let (anchor, body) := anchored path.toList
  match reversed body with
  | [] => if anchor == ['.'] then some "" else none
  | _ :: above => some (assemble anchor (above.dropWhile isIdle))

def chain : List (List Char) → List (List (List Char))
  | [] => []
  | segment :: above =>
    if isIdle segment then chain above else (segment :: above) :: chain above

/-- A path without idle ends and all that is above it, up to but without the root. -/
def ancestors (path : String) : List String :=
  let (anchor, body) := anchored path.toList
  (chain (reversed body)).map (assemble anchor) ++ if anchor == ['.'] then ["."] else []

/-- The last segment, unless it leads upwards. -/
def fileName? (path : String) : Option (List Char) :=
  match reversed (anchored path.toList).2 with
  | [] => none
  | name :: _ => if name == ['.', '.'] then none else some name

/-- What follows the last dot of the file name, if anything stands before that dot. -/
def extension? (path : String) : Option String := do
  let name ← fileName? path
  match name.reverse.span (· != '.') with
  | (_, []) | (_, [_]) => none
  | (letters, _) => some (String.ofList letters.reverse)

def isAbsolute (path : String) : Bool :=
  path.toList.head? == some '/'

def join (base path : String) : String :=
  if isAbsolute path || base.isEmpty then path
  else if base.toList.getLast? == some '/' then base ++ path
  else base ++ "/" ++ path

end TypedClient.Path
