import TypedClient.Notation.Yaml.Outline

/-! YAML texts as nodes, with the nodes that aliases stand for in their place. -/
namespace TypedClient.Notation.Yaml

/-- The greatest number of collections around a value, itself included. -/
def maxDepth : Nat := 128

/-- Keys and values in turn. A node that stands in place of a key is the last. -/
def pairUp : List Node → List (Node × Node)
  | key :: value :: rest => (key, value) :: pairUp rest
  | [last] => [(last, .broken)]
  | [] => []

def marked (tagged : Bool) (node : Node) : Node :=
  if tagged then .tagged node else node

/-- The nodes that bear numbers, as they are read in one place. -/
abbrev Level := Array Node

mutual

/-- An outline where one collection may lie in another as often as there are levels below the first.
The levels hold what aliases stand for in such a place, in one with a collection more around it, and
so on. -/
def expand : List Level → Outline → Node
  | _, .broken => .broken
  | _, .scalar leaf => .scalar leaf
  | levels, .alias number =>
    .shared ((levels.head?.bind fun level => level[number]?).getD .unreadable)
  | _ :: level :: below, .list tagged items =>
    marked tagged (.list false (expandAll (level :: below) items))
  | _ :: level :: below, .map tagged items =>
    marked tagged (.map (pairUp (expandAll (level :: below) items)))
  | _, _ => .unreadable

def expandAll (levels : List Level) : List Outline → List Node
  | [] => []
  | item :: rest => expand levels item :: expandAll levels rest

end

/-- The levels for `depth` collections and for fewer. A node that contains itself ends where no more
collections have room. -/
def levels (bearers : Array (Option Outline)) : Nat → List Level
  | 0 => [bearers.map fun bearer => bearer.elim .unreadable (expand [])]
  | depth + 1 =>
    let below := levels bearers depth
    bearers.map (fun bearer => bearer.elim .unreadable (expand (#[] :: below))) :: below

/-- At most a hundred aliases are followed for each event. -/
def parse (text : String) : Parsed :=
  let read := Events.ofText text
  if read.closed && read.events.isEmpty then { root := .scalar emptyLeaf, complete := read.last }
  else
    let composer := read.events.foldl Composer.feed {}
    { root := expand (levels composer.bearersByNumber maxDepth) composer.outline
      complete := read.closed && read.last && !composer.broken
      jumps := 100 * composer.events }

end TypedClient.Notation.Yaml
