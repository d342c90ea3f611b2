/-! Binary floating point numbers of 64 bits, rounded in exact arithmetic. -/
namespace TypedClient

/-- A finite number is `mantissa * 2 ^ exponent`, with a mantissa of at most 53 bits. -/
inductive Binary64 where
  | finite (negative : Bool) (mantissa : Nat) (exponent : Int)
  | infinite (negative : Bool)
  | notANumber
  deriving DecidableEq

namespace Binary64

def leadingBit : Nat := 0x10000000000000

/-- `n * base ^ e` as numerator and denominator. -/
def shifted (n base : Nat) (e : Int) : Nat × Nat :=
  if 0 ≤ e then (n * Nat.pow base e.toNat, 1) else (n, Nat.pow base (-e).toNat)

/-- The integer nearest to `num / den`, of two the even one. -/
def nearest (num den : Nat) : Nat :=
  let q := num / den
  let r := num % den
  if 2 * r > den || (2 * r == den && q % 2 == 1) then q + 1 else q

/-- The exponent of the largest power of two that is at most `num / den`. -/
def floorLog2 (num den : Nat) : Int :=
  let guess : Int := (num.log2 : Int) - den.log2
  let reached :=
    if 0 ≤ guess then den * Nat.pow 2 guess.toNat ≤ num
    else den ≤ num * Nat.pow 2 (-guess).toNat
  if reached then guess else guess - 1

/-- The number nearest to `num / den`, of two the one with even mantissa. -/
def ofRatio (negative : Bool) (num den : Nat) : Binary64 :=
  if num = 0 then .finite negative 0 (-1074)
  else
    let exponent := max (floorLog2 num den - 52) (-1074)
    let mantissa :=
      if 0 ≤ exponent then nearest num (den * Nat.pow 2 exponent.toNat)
      else nearest (num * Nat.pow 2 (-exponent).toNat) den
    let carried := mantissa == 2 * leadingBit
    let mantissa := if carried then leadingBit else mantissa
    let exponent := if carried then exponent + 1 else exponent
    if exponent > 971 then .infinite negative else .finite negative mantissa exponent

def ofInt (n : Int) : Binary64 :=
  ofRatio (n < 0) n.natAbs 1

/-- The number nearest to `digits * 10 ^ exponent`. -/
def ofDecimal (negative : Bool) (digits : Nat) (exponent : Int) : Binary64 :=
  let magnitude : Int := (digits.log2 : Int) / 3 + exponent
  if digits = 0 || magnitude < -400 then .finite negative 0 (-1074)
  else if exponent > 400 then .infinite negative
  else
    let (num, den) := shifted digits 10 exponent
    ofRatio negative num den

def isZero : Binary64 → Bool
  | .finite _ mantissa _ => mantissa == 0
  | _ => false

def isFinite : Binary64 → Bool
  | .finite .. => true
  | _ => false

def withSign (negative : Bool) : Binary64 → Binary64
  | .finite _ mantissa exponent => .finite negative mantissa exponent
  | .infinite _ => .infinite negative
  | .notANumber => .notANumber

def times : Binary64 → Binary64 → Binary64
  | .finite _ m e, .finite _ m' e' =>
    let (num, den) := shifted (m * m') 2 (e + e')
    ofRatio false num den
  | .notANumber, _ | _, .notANumber => .notANumber
  | _, _ => .infinite false

def dividedBy : Binary64 → Binary64 → Binary64
  | .finite _ m e, .finite _ m' e' =>
    let (num, den) := shifted m 2 (e - e')
    ofRatio false num (den * m')
  | _, _ => .notANumber

def powerOfTen (n : Nat) : Binary64 :=
  ofRatio false (Nat.pow 10 n) 1

/-- Scaling by a power of ten in steps that are each rounded; none where the number gets too large.
The steps divide by `10 ^ 308` until the rest of the exponent is a single power. -/
def scale (steps : Nat) (value : Binary64) (exponent : Int) : Option Binary64 :=
  if exponent.natAbs ≤ 308 then
    if 0 ≤ exponent then
      let scaled := value.times (powerOfTen exponent.natAbs)
      if scaled.isFinite then some scaled else none
    else some (value.dividedBy (powerOfTen exponent.natAbs))
  else if value.isZero then some value
  else if 0 ≤ exponent then none
  else
    match steps with
    | 0 => some (.finite false 0 (-1074))
    | steps + 1 => scale steps (value.dividedBy (powerOfTen 308)) (exponent + 308)

end Binary64
end TypedClient
