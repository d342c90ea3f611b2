import TypedClient.Notation.Yaml.Leaf

/-! Outlines: the trees that events describe, with every alias still in its place. -/
namespace TypedClient.Notation.Yaml

inductive Outline where
  | broken
  | scalar (leaf : Leaf)
  | alias (number : Nat)
  | list (tagged : Bool) (items : List Outline)
  /-- Keys and values in turn. -/
  | map (tagged : Bool) (items : List Outline)

structure Frame where
  mapping : Bool
  tagged : Bool
  /-- The place among the anchored nodes. -/
  serial : Option Nat
  /-- Backwards. -/
  items : List Outline := []

def Frame.outline (frame : Frame) : Outline :=
  if frame.mapping then .map frame.tagged frame.items.reverse
  else .list frame.tagged frame.items.reverse

def Frame.add (frame : Frame) (item : Outline) : Frame :=
  { frame with items := item :: frame.items }

structure Composer where
  frames : List Frame := []
  /-- The anchors with their numbers, the latest first. -/
  anchors : List (String × Nat) := []
  /-- How many different names anchors have. -/
  names : Nat := 0
  /-- The numbers that nodes bear, with the places of the nodes, the latest first. -/
  bearers : List (Nat × Nat) := []
  /-- The anchored nodes that came to their end, by place. -/
  finished : List (Nat × Outline) := []
  root : Option Outline := none
  events : Nat := 0
  /-- Whether an alias names nothing. Nothing behind it is taken in. -/
  broken : Bool := false

namespace Composer

def add (composer : Composer) (item : Outline) : Composer :=
  match composer.frames with
  | [] => { composer with root := some item }
  | frame :: outer => { composer with frames := frame.add item :: outer }

/-- An anchor gives its node the number of different names before it, so a name that is used again
shares its number with the next new one. Of the nodes with one number the last counts. -/
def anchored (composer : Composer) : Option String → Option Nat × Composer
  | none => (none, composer)
  | some name =>
    let isNew := (composer.anchors.lookup name).isNone
    let serial := composer.bearers.length
    (some serial,
      { composer with
        anchors := (name, composer.names) :: composer.anchors
        names := if isNew then composer.names + 1 else composer.names
        bearers := (composer.names, serial) :: composer.bearers })

def finish (composer : Composer) (serial : Option Nat) (item : Outline) : Composer :=
  match serial with
  | some serial => { composer with finished := (serial, item) :: composer.finished }.add item
  | none => composer.add item

def opened (composer : Composer) (anchor : Option String) (tag : Option Tag) (mapping : Bool) :
    Composer :=
  let (serial, composer) := composer.anchored anchor
  { composer with frames := { mapping, tagged := isForeign tag, serial } :: composer.frames }

def closed (composer : Composer) : Composer :=
  match composer.frames with
  | [] => composer
  | frame :: outer => { composer with frames := outer }.finish frame.serial frame.outline

def take (composer : Composer) (event : Event) : Composer :=
  match event with
  | .alias name =>
    match composer.anchors.lookup name with
    | some number => composer.add (.alias number)
    | none => { composer with broken := true }
  | .scalar anchor tag text style =>
    let (serial, composer) := composer.anchored anchor
    composer.finish serial (.scalar (leafOf tag text style))
  | .listStart anchor tag => composer.opened anchor tag false
  | .mapStart anchor tag => composer.opened anchor tag true
  | .listEnd | .mapEnd => composer.closed
  | _ => composer

def feed (composer : Composer) (event : Event) : Composer :=
  if composer.broken then composer
  else
    let composer := composer.take event
    if composer.broken then composer else { composer with events := composer.events + 1 }

/-- The root. Collections that were left open end where the text breaks off. -/
def outline (composer : Composer) : Outline :=
  match composer.root with
  | some root => root
  | none => composer.frames.foldl (fun last frame => (frame.add last).outline) .broken

/-- The node that bears a number, unless it was left open. -/
def bearer? (composer : Composer) (number : Nat) : Option Outline :=
  (composer.bearers.lookup number).bind fun serial => composer.finished.lookup serial

def bearersByNumber (composer : Composer) : Array (Option Outline) :=
  ((List.range (composer.names + 1)).map composer.bearer?).toArray

end Composer
end TypedClient.Notation.Yaml
