import Chaining.Binary64
import Chaining.Rounding

/-!
# Exact binary64 arithmetic

Each operation computes its exact result as an integer multiple of a power of two and rounds it
once, to the nearest binary64 value with ties to an even significand; a result that rounds to
`2^1024` or beyond is an infinity. The values built here are canonical: a significand below
`2^53`, and below `2^52` only at the least exponent.

* `Binary64.round`: the binary64 value nearest to `± m * 2^q`.
* `Binary64.ofInt`: the value nearest to an integer.
* `Binary64.toBits`, `Binary64.toFloat`: the interchange encoding and the `Float` it stands for.
* `Binary64.add`: the rounded sum.
* `Binary64.fmod`: the remainder of truncated division, which is exact and takes the sign of the
  dividend.
* `Binary64.floorRem`: the remainder of floored division, which takes the sign of the divisor.
-/

namespace Chaining

namespace Binary64

/-- Whether the value is zero, of either sign. -/
def isZero : Binary64 → Bool
  | finite _ m _ => m == 0
  | _ => false

/-- Whether the value is below zero; NaN and the zeros are not. -/
def isNegative : Binary64 → Bool
  | finite negative m _ => negative && m != 0
  | infinite negative => negative
  | nan => false

/-- Whether the sign bit is set: the negative values and the negative zero. -/
def signBit : Binary64 → Bool
  | finite negative _ _ => negative
  | infinite negative => negative
  | nan => false

/-- The zero with the given sign. -/
def zero (negative : Bool) : Binary64 := finite negative 0 (-1074)

/-- The binary64 value nearest to `± m * 2^q`, ties to an even significand. The significand
keeps 53 bits, or fewer where the exponent would fall below `-1074`; a value that rounds to
`2^1024` or beyond is infinite. -/
def round (negative : Bool) (m : Nat) (q : Int) : Binary64 :=
  if m = 0 then zero negative else
  let shift : Int := max ((Nat.log2 m + 1 : Nat) - 53 : Int) (-1074 - q)
  let m' : Nat :=
    if shift ≤ 0 then m * Nat.pow 2 (-shift).toNat else divRoundEven m (Nat.pow 2 shift.toNat)
  -- a carry out of the 53 bits moves the exponent up by one
  let (m'', q') : Nat × Int :=
    if m' = Nat.pow 2 53 then (Nat.pow 2 52, q + shift + 1) else (m', q + shift)
  if q' + 52 > 1023 then infinite negative else finite negative m'' q'

/-- The value nearest to the integer `n`; infinite when `n` rounds past the largest float. -/
def ofInt (n : Int) : Binary64 := round (n < 0) n.natAbs 0

/-- The interchange encoding of a canonical value: sign, eleven bits of biased exponent, fifty-two
bits of fraction. -/
def toBits : Binary64 → UInt64
  | nan => 0x7FF8000000000000
  | infinite negative => (if negative then 0x8000000000000000 else 0) ||| 0x7FF0000000000000
  | finite negative m q =>
    let sign : UInt64 := if negative then 0x8000000000000000 else 0
    if m < Nat.pow 2 52 then sign ||| m.toUInt64
    else sign ||| ((q + 1075).toNat.toUInt64 <<< 52) ||| (m - Nat.pow 2 52).toUInt64

/-- The float a canonical value stands for. -/
def toFloat (x : Binary64) : Float := Float.ofBits x.toBits

/-- The sum, rounded once. Infinities of opposite signs give NaN; an exact zero sum is positive
unless both terms are negative zeros or negative. -/
def add : Binary64 → Binary64 → Binary64
  | nan, _ | _, nan => nan
  | infinite a, infinite b => if a == b then infinite a else nan
  | infinite a, finite .. => infinite a
  | finite .., infinite b => infinite b
  | finite a m q, finite b n r =>
    let e := min q r
    let x : Int := (m * Nat.pow 2 (q - e).toNat : Nat)
    let y : Int := (n * Nat.pow 2 (r - e).toNat : Nat)
    let s := (if a then -x else x) + (if b then -y else y)
    if s = 0 then zero (a && b) else round (s < 0) s.natAbs e

/-- The remainder of `x` by `y` after division truncated toward zero: exact, with the sign of
`x`, smaller in magnitude than `y`. An infinite dividend or a zero or NaN divisor gives NaN; an
infinite divisor leaves a finite dividend as it is. -/
def fmod : Binary64 → Binary64 → Binary64
  | nan, _ | _, nan | infinite _, _ => nan
  | finite a m q, infinite _ => finite a m q
  | finite a m q, finite _ n r =>
    if n = 0 then nan else
    let e := min q r
    round a ((m * Nat.pow 2 (q - e).toNat) % (n * Nat.pow 2 (r - e).toNat)) e

/-- The remainder of `x` by a nonzero `y` after floored division: the truncated remainder, moved
by one `y` when its sign differs from the sign of `y`, and a zero remainder given the sign of `y`. -/
def floorRem (x y : Binary64) : Binary64 :=
  let r := fmod x y
  if r.isZero then zero y.signBit
  else if y.isNegative != r.isNegative then add r y
  else r

example : floorRem (finite true 15 (-1)) (finite false 1 1) = finite false (Nat.pow 2 52) (-53) := by
  decide +kernel

example : ofInt (Nat.pow 2 1024) = infinite false ∧ ofInt 3 = finite false (3 * Nat.pow 2 51) (-51) := by
  decide +kernel

end Binary64

end Chaining
