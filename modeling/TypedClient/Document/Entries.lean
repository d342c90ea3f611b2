/-! Ordered mappings as lists of entries. -/
namespace TypedClient.Entries

variable {α : Type}

def get? (key : String) (entries : List (String × α)) : Option α :=
  (entries.find? (·.1 == key)).map (·.2)

def has (key : String) (entries : List (String × α)) : Bool :=
  entries.any (·.1 == key)

/-- Changes the value under a key, and adds the key at the end if it is new. -/
def alter (key : String) (change : Option α → α) : List (String × α) → List (String × α)
  | [] => [(key, change none)]
  | (held, value) :: rest =>
    if held == key then (held, change (some value)) :: rest
    else (held, value) :: alter key change rest

/-- A repeated key keeps its first place and takes the last value. -/
def put (key : String) (value : α) (entries : List (String × α)) : List (String × α) :=
  alter key (fun _ => value) entries

def ofList (pairs : List (String × α)) : List (String × α) :=
  pairs.foldl (fun entries (key, value) => put key value entries) []

def adjust (key : String) (change : α → α) : List (String × α) → List (String × α)
  | [] => []
  | (held, value) :: rest =>
    if held == key then (held, change value) :: rest
    else (held, value) :: adjust key change rest

end TypedClient.Entries
