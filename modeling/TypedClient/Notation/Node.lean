import TypedClient.Document.Entries
import TypedClient.Number.Binary64

/-!
Nodes: what every notation for documents is read into, before it is known what a node stands for.
A scalar may read as several things, and where the text stops being readable stands a broken node.
-/
namespace TypedClient.Notation

/-- The value that a scalar has by itself. -/
inductive Atom where
  | null
  | flag (value : Bool)
  | integer (value : Int)
  | float (value : Binary64)
  | text (value : String)
  deriving DecidableEq

/-- All readings of a scalar. -/
structure Leaf where
  /-- Where a text is expected. -/
  text : Option String := none
  /-- Where a flag is expected. -/
  flag : Option Bool := none
  /-- Whether it is absence, where that is possible; none if nothing can be made of it there. -/
  absence : Option Bool := some false
  /-- Whether it is an empty collection, where a collection is expected. -/
  hollow : Bool := false
  /-- By itself; none if it cannot be read so. -/
  atom : Option Atom := none

/-- Whether a scalar is read as what is expected of it, or as what it is by itself. -/
inductive Reading where
  | expected
  | intrinsic
  deriving DecidableEq

inductive Node where
  /-- Not even to be passed over. -/
  | broken
  | scalar (leaf : Leaf)
  /-- A list that is positional may hold the fields of a record in order. -/
  | list (positional : Bool) (items : List Node)
  | map (entries : List (Node × Node))
  /-- Reads as its content where something is expected, and as nothing by itself. -/
  | tagged (content : Node)
  /-- A node that stands elsewhere in the text and is named here. -/
  | shared (content : Node)

namespace Leaf

def ofAtom (atom : Atom) : Leaf where
  text := match atom with | .text value => some value | _ => none
  flag := match atom with | .flag value => some value | _ => none
  absence := some (atom == .null)
  atom := some atom

/-- May be passed over and nothing else. -/
def unreadable : Leaf := {}

def text? (leaf : Leaf) : Reading → Option String
  | .expected => leaf.text
  | .intrinsic => match leaf.atom with | some (.text value) => some value | _ => none

def flag? (leaf : Leaf) : Reading → Option Bool
  | .expected => leaf.flag
  | .intrinsic => match leaf.atom with | some (.flag value) => some value | _ => none

def isAbsent? (leaf : Leaf) : Reading → Option Bool
  | .expected => leaf.absence
  | .intrinsic => some (leaf.atom == some .null)

def isHollow (leaf : Leaf) : Reading → Bool
  | .expected => leaf.hollow
  | .intrinsic => false

end Leaf

namespace Node

def ofAtom (atom : Atom) : Node :=
  .scalar (.ofAtom atom)

def ofText (text : String) : Node :=
  ofAtom (.text text)

def unreadable : Node :=
  .scalar .unreadable

/-- The name of a choice: a text, or the only key of a map, over null. -/
def choice? : Node → Option String
  | .scalar leaf => leaf.text
  | .map [(.scalar key, .scalar leaf)] => if leaf.absence == some true then key.text else none
  | _ => none

/-- The node itself, wherever it stands. -/
def bare : Node → Node
  | .shared content => bare content
  | node => node

mutual

/-- Whether a node may be passed over. -/
def isWellFormed : Node → Bool
  | .broken => false
  | .scalar _ => true
  | .list _ items => allWellFormed items
  | .map entries => entriesWellFormed entries
  | .tagged content => isWellFormed content
  | .shared _ => true

def allWellFormed : List Node → Bool
  | [] => true
  | item :: rest => isWellFormed item && allWellFormed rest

def entriesWellFormed : List (Node × Node) → Bool
  | [] => true
  | (key, value) :: rest => isWellFormed key && isWellFormed value && entriesWellFormed rest

end

end Node

/-- A text as far as it could be read. -/
structure Parsed where
  root : Node
  /-- Whether the text holds nothing but the root. -/
  complete : Bool
  /-- How many times reading may go on to a node that stands elsewhere. -/
  jumps : Nat := 0

end TypedClient.Notation
