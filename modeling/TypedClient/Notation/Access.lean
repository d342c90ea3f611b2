import TypedClient.Notation.Node

/-!
Access to what nodes hold. Reading keeps count of the nodes that it goes on to elsewhere in the text,
for a short text with many names can stand for a very large one.
-/
namespace TypedClient.Notation

/-- A reading that may fail, under a number of jumps that are left. -/
abbrev Read := StateT Nat Option

namespace Node

/-- Goes on to a node that stands elsewhere. What was read by itself before needs no further jump. -/
def jump : Reading → Read Unit
  | .intrinsic => pure ()
  | .expected => fun left =>
    match left with
    | 0 => none
    | left + 1 => some ((), left)

mutual

/-- Reads a node by itself and makes nothing of it. -/
def settle : Node → Read Unit
  | .broken => failure
  | .scalar leaf => if leaf.atom.isSome then pure () else failure
  | .list _ items => settleAll items
  | .map entries => settleEntries entries
  | .tagged _ => failure
  | .shared content => do
    jump .expected
    settle content

def settleAll : List Node → Read Unit
  | [] => pure ()
  | item :: rest => do
    settle item
    settleAll rest

def settleEntries : List (Node × Node) → Read Unit
  | [] => pure ()
  | (key, value) :: rest => do
    settle key
    settle value
    settleEntries rest

end

/-- Reads a node by itself, unless it is part of one that was read so. -/
def settleFor (reading : Reading) (node : Node) : Read Unit :=
  match reading with
  | .expected => node.settle
  | .intrinsic => pure ()

def text (reading : Reading) : Node → Read String
  | .scalar leaf => liftM (leaf.text? reading)
  | .tagged content => text reading content
  | .shared content => do
    jump reading
    text reading content
  | _ => failure

def flag (reading : Reading) : Node → Read Bool
  | .scalar leaf => liftM (leaf.flag? reading)
  | .tagged content => flag reading content
  | .shared content => do
    jump reading
    flag reading content
  | _ => failure

/-- Whether a node is absence, where that is possible. Absence is read with that. -/
def isAbsent (reading : Reading) : Node → Read Bool
  | .scalar leaf => liftM (leaf.isAbsent? reading)
  | .tagged content => isAbsent reading content
  | .shared content => do
    let absent ← isAbsent reading content
    if absent then jump reading
    pure absent
  | _ => pure false

def atom? : Node → Option Atom
  | .scalar leaf => leaf.atom
  | .shared content => atom? content
  | _ => none

def items (reading : Reading) : Node → Read (List Node)
  | .list _ items => pure items
  | .scalar leaf => if leaf.isHollow reading then pure [] else failure
  | .tagged content => items reading content
  | .shared content => do
    jump reading
    items reading content
  | _ => failure

/-- The entries of a mapping whose keys are names. -/
def entries (reading : Reading) : Node → Read (List (String × Node))
  | .map entries => entries.mapM fun (key, value) => do pure (← key.text reading, value)
  | .scalar leaf => if leaf.isHollow reading then pure [] else failure
  | .tagged content => entries reading content
  | .shared content => do
    jump reading
    entries reading content
  | _ => failure

/-! ### Plain data -/

/-- Numbers that are not finite count as null. -/
def plainAtom : Atom → Atom
  | .float value => if value.isFinite then .float value else .null
  | atom => atom

mutual

/-- The plain data of a node: every scalar by itself, and each key of a mapping once. -/
def plain : Node → Read Node
  | .broken => failure
  | .scalar leaf => do pure (ofAtom (plainAtom (← leaf.atom)))
  | .list _ items => do pure (.list true (← plainItems items))
  | .map entries => do
    let pairs ← plainEntries entries
    pure (.map ((Entries.ofList pairs).map fun (name, value) => (ofText name, value)))
  | .tagged _ => failure
  | .shared content => do
    jump .expected
    plain content

def plainItems : List Node → Read (List Node)
  | [] => pure []
  | item :: rest => do
    let value ← plain item
    let later ← plainItems rest
    pure (value :: later)

def plainEntries : List (Node × Node) → Read (List (String × Node))
  | [] => pure []
  | (key, item) :: rest => do
    let name ← key.text .expected
    let value ← plain item
    let later ← plainEntries rest
    pure ((name, value) :: later)

end

/-! ### Records -/

/-- The field that a key of a record stands for, if it is not passed over. In what was read by itself
a number stands for the field at that place. -/
def field (reading : Reading) (names : List String) (key : Node) : Read (Option Nat) :=
  match reading, key.atom? with
  | .intrinsic, some (.integer index) =>
    if 0 ≤ index then pure (if index.toNat < names.length then some index.toNat else none)
    else failure
  | _, _ => do
    let name ← key.text reading
    pure (names.findIdx? (· == name))

end Node

/-- The fields of a record in declaration order. A list of fields holds at least `least` of them. -/
structure Form where
  names : List String
  least : Nat

namespace Node

/-- No field may be given twice, and other keys are passed over. -/
def fillSlots (reading : Reading) (names : List String) :
    List (Node × Node) → List (Option Node) → Read (List (Option Node))
  | [], slots => pure slots
  | (key, value) :: rest, slots => do
    match ← key.field reading names with
    | none => if value.isWellFormed then fillSlots reading names rest slots else failure
    | some index =>
      match slots[index]? with
      | some none => fillSlots reading names rest (slots.set index (some value))
      | _ => failure

/-- The node of each field of a record. -/
def slots (reading : Reading) (form : Form) : Node → Read (List (Option Node))
  | .map entries => fillSlots reading form.names entries (form.names.map fun _ => none)
  | .list positional items =>
    if (positional || reading == .intrinsic) && form.least ≤ items.length &&
        items.length ≤ form.names.length then
      pure (items.map some ++ List.replicate (form.names.length - items.length) none)
    else failure
  | .scalar leaf =>
    if leaf.isHollow reading then pure (form.names.map fun _ => none) else failure
  | .tagged content => slots reading form content
  | .shared content => do
    jump reading
    slots reading form content
  | .broken => failure

end Node
end TypedClient.Notation
