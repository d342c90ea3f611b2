import TypedClient.Number.Binary64

/-! The fewest decimal digits that read back as the same number. -/
namespace TypedClient.Binary64

/-- The exponent of the largest power of ten that is at most `num / den`, for `den ≤ num * 10 ^ n`. -/
def floorLog10 (num den : Nat) (n : Nat) : Int :=
  ((toString (num * Nat.pow 10 n / den)).length : Int) - 1 - n

/-- The numbers that round to `mantissa * 2 ^ exponent` lie between `low` and `high`, and the bounds
are among them if `closed`; all in units of `un / ud`. -/
structure Rounding where
  low : Nat
  value : Nat
  high : Nat
  closed : Bool
  un : Nat
  ud : Nat

def Rounding.of (mantissa : Nat) (exponent : Int) : Rounding :=
  let (un, ud) := shifted 1 2 (exponent - 2)
  { low := 4 * mantissa - (if mantissa == leadingBit then 1 else 2)
    value := 4 * mantissa
    high := 4 * mantissa + 2
    closed := mantissa % 2 == 0
    un, ud }

/-- One of the two neighbours on the grid of multiples of `10 ^ grid`, if it lies within the bounds;
of both the nearer, the upper one when they are equally near. -/
def Rounding.onGrid (r : Rounding) (grid : Int) : Option Nat :=
  let (gn, gd) := shifted 1 10 grid
  let unit := r.un * gd
  let step := gn * r.ud
  let q := r.value * unit / step
  let below := if r.closed then r.low * unit ≤ q * step else r.low * unit < q * step
  let above := if r.closed then (q + 1) * step ≤ r.high * unit else (q + 1) * step < r.high * unit
  let rest := r.value * unit - q * step
  if below && above then some (if 2 * rest < step then q else q + 1)
  else if below then some q
  else if above then some (q + 1)
  else none

/-- Digits and the exponent of ten that they are multiplied with. -/
def Rounding.shortest (r : Rounding) (top : Int) : Nat → Nat → Nat × Int
  | 0, _ => (0, 0)
  | fuel + 1, count =>
    let grid := top + 1 - count
    match r.onGrid grid with
    | some digits => if digits % 10 == 0 then (digits / 10, grid + 1) else (digits, grid)
    | none => r.shortest top fuel (count + 1)

def positional (digits : String) (exponent : Int) : String :=
  if 0 ≤ exponent then digits ++ String.ofList (List.replicate exponent.toNat '0')
  else
    let places := (-exponent).toNat
    if places < digits.length then
      String.ofList (digits.toList.take (digits.length - places)) ++ "." ++
        String.ofList (digits.toList.drop (digits.length - places))
    else "0." ++ String.ofList (List.replicate (places - digits.length) '0') ++ digits

/-- Shortest digits without exponent, and no point behind a whole number. -/
def text : Binary64 → String
  | .notANumber => "NaN"
  | .infinite negative => if negative then "-inf" else "inf"
  | .finite negative mantissa exponent =>
    let sign := if negative then "-" else ""
    if mantissa = 0 then sign ++ "0"
    else
      let r := Rounding.of mantissa exponent
      let (num, den) := shifted mantissa 2 exponent
      let (digits, grid) := r.shortest (floorLog10 num den 330) 18 1
      sign ++ positional (toString digits) grid

end TypedClient.Binary64
