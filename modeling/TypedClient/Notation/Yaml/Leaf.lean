import TypedClient.Notation.Node
import TypedClient.Notation.Yaml.Event

/-! The readings of a scalar, by its tag and, where it has none, by the form of its text. -/
namespace TypedClient.Notation.Yaml

def parseNull (text : String) : Bool :=
  ["null", "Null", "NULL", "~"].contains text

def parseFlag? (text : String) : Option Bool :=
  if ["true", "True", "TRUE"].contains text then some true
  else if ["false", "False", "FALSE"].contains text then some false
  else none

def isSign (c : Char) : Bool :=
  c == '+' || c == '-'

def digitOf? (base : Nat) (c : Char) : Option Nat :=
  (hexDigit? c).bind fun value => if value < base then some value else none

def digitsOf? (base : Nat) (digits : List Char) : Option Nat :=
  if digits.isEmpty then none
  else digits.foldlM (fun value c => (digitOf? base c).map (base * value + ·)) 0

/-- A leading zero before other digits makes a text. -/
def isPadded (text : List Char) : Bool :=
  let digits := match text with | c :: rest => if isSign c then rest else text | [] => []
  digits.length > 1 && digits.head? == some '0' && digits.all Char.isDigit

/-- A number in decimal, or in another base behind its mark. -/
def magnitude? : List Char → Option Nat
  | '0' :: 'x' :: digits => digitsOf? 16 digits
  | '0' :: 'o' :: digits => digitsOf? 8 digits
  | '0' :: 'b' :: digits => digitsOf? 2 digits
  | digits => if isPadded digits then none else digitsOf? 10 digits

def integer? (text : List Char) : Option Int :=
  match text with
  | '+' :: digits => (magnitude? digits).map Int.ofNat
  | '-' :: digits => (magnitude? digits).map fun value => -(Int.ofNat value)
  | digits => (magnitude? digits).map Int.ofNat

def exponent? : List Char → Option Int
  | [] => some 0
  | mark :: rest =>
    if mark == 'e' || mark == 'E' then
      match rest with
      | '-' :: digits => (digitsOf? 10 digits).map fun value => -(Int.ofNat value)
      | '+' :: digits => (digitsOf? 10 digits).map Int.ofNat
      | digits => (digitsOf? 10 digits).map Int.ofNat
    else none

/-- Digits with a point among, before or behind them, and an exponent. -/
def decimal? (negative : Bool) (text : List Char) : Option Binary64 := do
  let whole := text.takeWhile Char.isDigit
  let rest := text.dropWhile Char.isDigit
  let pointed := rest.head? == some '.'
  let rest := if pointed then rest.tail else rest
  let fraction := if pointed then rest.takeWhile Char.isDigit else []
  let rest := if pointed then rest.dropWhile Char.isDigit else rest
  let digits ← digitsOf? 10 (whole ++ fraction)
  let exponent ← exponent? rest
  let value := Binary64.ofDecimal negative digits (exponent - fraction.length)
  if value.isFinite then some value else none

def float? (text : List Char) : Option Binary64 :=
  let unsigned := match text with | '+' :: rest => rest | _ => text
  if text.head? == some '+' && unsigned.head?.any isSign then none
  else if [".inf", ".Inf", ".INF"].contains (String.ofList unsigned) then some (.infinite false)
  else if ["-.inf", "-.Inf", "-.INF"].contains (String.ofList text) then some (.infinite true)
  else if [".nan", ".NaN", ".NAN"].contains (String.ofList text) then some .notANumber
  else
    match unsigned with
    | '-' :: digits => decimal? true digits
    | digits => decimal? false digits

inductive Numeric where
  | integer (value : Int)
  | float (value : Binary64)
  /-- An integer that no reader takes. -/
  | excessive

/-- Integers beyond 64 bits are excessive up to 128 bits, and beyond that floating point numbers. -/
def integerKind? (text : List Char) : Option Numeric :=
  match integer? text with
  | some value =>
    if -0x8000000000000000 ≤ value ∧ value < 0x10000000000000000 then some (.integer value)
    else if -0x80000000000000000000000000000000 ≤ value ∧
        value < 0x100000000000000000000000000000000 then some .excessive
    else none
  | none => none

def numeric? (text : List Char) : Option Numeric :=
  match integerKind? text with
  | some kind => some kind
  | none => if isPadded text then none else (float? text).map .float

def Numeric.atom? : Numeric → Option Atom
  | .integer value => some (.integer value)
  | .float value => some (.float value)
  | .excessive => none

def plainAtom? (text : String) : Option Atom :=
  if text.isEmpty || parseNull text then some .null
  else
    match parseFlag? text with
    | some flag => some (.flag flag)
    | none =>
      match numeric? text.toList with
      | some kind => kind.atom?
      | none => some (.text text)

def coreTag (name : String) : Tag :=
  .ofText ("tag:yaml.org,2002:" ++ name)

/-- Whether a tag stands behind an exclamation mark. -/
def isLocal (tag : Tag) : Bool :=
  tag.head? == some 0x21

/-- Whether a node with a local tag has no reading by itself, as when the tag is a text. -/
def isForeign (tag : Option Tag) : Bool :=
  tag.any fun tag => isLocal tag && (String.fromUTF8? ⟨tag.toArray⟩).isSome

/-- The value of a scalar. A tag of the core schema forces the type, a local one leaves it as it is,
and other tags make a text. -/
def atomOf (tag : Option Tag) (text : String) (style : Style) : Option Atom :=
  if isForeign tag then none
  else
    let untagged := if style == .plain then plainAtom? text else some (.text text)
    match tag with
    | none => untagged
    | some tag =>
      if tag == coreTag "bool" then (parseFlag? text).map .flag
      else if tag == coreTag "int" then (integerKind? text.toList).bind Numeric.atom?
      else if tag == coreTag "float" then (float? text.toList).map .float
      else if tag == coreTag "null" then if parseNull text then some .null else none
      else if isLocal tag then untagged
      else some (.text text)

/-- Only plain scalars can be absence, and those with the tag of null can be nothing else. -/
def absenceOf (tag : Option Tag) (text : String) (style : Style) : Option Bool :=
  if style != .plain then some false
  else if tag == some (coreTag "null") then if parseNull text then some true else none
  else some (tag.isNone && (text.isEmpty || parseNull text))

def leafOf (tag : Option Tag) (text : String) (style : Style) : Leaf where
  text := some text
  flag :=
    if style == .plain || (style == .literal && tag == some (coreTag "bool")) then parseFlag? text
    else none
  absence := absenceOf tag text style
  hollow := style == .plain && text.isEmpty
  atom := atomOf tag text style

/-- An empty text is an empty collection or null. -/
def emptyLeaf : Leaf :=
  { absence := some true, hollow := true, atom := some .null }

end TypedClient.Notation.Yaml
