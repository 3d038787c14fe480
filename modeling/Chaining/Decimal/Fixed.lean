import Chaining.Decimal.Shortest
import Chaining.Rounding
import Chaining.Text.Numeral

/-!
# Floats to a given precision

Three ways to write a float with a precision `p`, each rounding the exact value once, to the
nearest decimal with ties to an even last digit:

* *scientific* (`1.500000e+00`): `p + 1` significant digits, one before the point, then `e`, a
  sign and at least two exponent digits;
* *fixed* (`1.500000`): `p` digits after the point;
* *general* (`1.5`): `p` significant digits (at least one), written scientifically when the
  point would stand four or more places before the first digit or past the `p`-th, otherwise
  positionally; trailing zeros and a trailing point are dropped.

The *alternate* form keeps the point always and, in the general style, the trailing zeros.
Infinities and NaN are `inf`, `-inf` and `nan`, in capitals for the upper-case conversions.

* `Decimal.roundOnGrid`: `m * 2^q / 10^s`, rounded.
* `Decimal.significant`, `Decimal.places`: the rounded digits and where the point stands.
* `Decimal.spell`: digits and point laid out, zeros added on either side, with the exponent.
* `FloatStyle`, `Binary64.toPrecision`: the three styles applied to any value.
-/

namespace Chaining

namespace Decimal

/-- `m * 2^q / 10^s`, rounded to the nearest integer, ties to even. -/
def roundOnGrid (m : Nat) (q s : Int) : Nat :=
  divRoundEven (m * Nat.pow 2 q.toNat * Nat.pow 10 (-s).toNat) (Nat.pow 2 (-q).toNat * Nat.pow 10 s.toNat)

/-- The decimal digits of `n` with trailing zeros removed. -/
def trimmedDigits (n : Nat) : List Char := ((Nat.toDigits 10 n).reverse.dropWhile (· == '0')).reverse

/-- A bound on the decimal digits of a float's exact value: a significand below `2^53` times
`2^q` with `q ≥ -1074` has fewer significant digits than this (at most 767) and no more places
after the point (at most 1074). Rounding to this many digits or places, or more, is exact, so a
larger precision only adds zeros. -/
def exactDigits : Nat := 1100

/-- The value `m * 2^q` to `p ≥ 1` significant digits: the digits without trailing zeros, and the
position of the point, the value being `0.d₁d₂… * 10^point`. Zero is the digit `0` with the point
after it. -/
def significant (m : Nat) (q : Int) (p : Nat) : List Char × Int :=
  if m = 0 then (['0'], 1) else
  let p := min p exactDigits
  let k := scale m q
  let n := roundOnGrid m q (k - p)
  -- rounding up past the last of the `p` digits adds one to the exponent
  if n = Nat.pow 10 p then (trimmedDigits (Nat.pow 10 (p - 1)), k + 1) else (trimmedDigits n, k)

/-- The value `m * 2^q` to `p` places after the point: the digits without trailing zeros and the
position of the point. A nonzero value that rounds to zero has no digits and the point `-p`. -/
def places (m : Nat) (q : Int) (p : Nat) : List Char × Int :=
  if m = 0 then (['0'], 1) else
  let e := min p exactDigits
  let n := roundOnGrid m q (-(e : Int))
  if n = 0 then ([], -(p : Int)) else
  ((trimmedDigits n), ((Nat.toDigits 10 n).length : Int) - e)

/-- Digits `ds` with the point after `point` of them, written out to `stop` digit places (zeros
added on the left when the point stands before the digits, on the right up to `stop`). With an
exponent the point stands after the first digit and `mark`, a sign and at least two digits of
the exponent follow. A point with no digit after it is dropped unless `alternate`. -/
def spell (ds : List Char) (point : Int) (exponent : Bool) (stop : Int) (alternate : Bool)
    (mark : Char) : List Char :=
  let power := point - 1
  let point := if exponent then 1 else point
  let start : Int := if point ≤ 0 then point - 1 else 0
  let stop := max stop point
  let n : Int := ds.length
  let zeros (k : Int) : List Char := List.replicate k.toNat '0'
  let left := if point ≤ 0 then zeros (point - start) ++ '.' :: zeros (-point) else zeros (-start)
  let middle :=
    if 0 < point ∧ point ≤ n then ds.take point.toNat ++ '.' :: ds.drop point.toNat else ds
  let right := if n < point then zeros (point - n) ++ '.' :: zeros (stop - point) else zeros (stop - n)
  let body := left ++ middle ++ right
  let body := if body.getLast? == some '.' && !alternate then body.dropLast else body
  if exponent then
    body ++ mark :: (if power < 0 then '-' else '+') :: Numeral.padLeft 2 '0' (Nat.toDigits 10 power.natAbs)
  else body

end Decimal

/-- How a float is written to a precision: one digit before the point and an exponent, a fixed
number of places after the point, or significant digits, scientific only for very small or large
values. -/
inductive FloatStyle where
  | scientific
  | fixed
  | general
deriving DecidableEq

/-- The value written in style `style` with precision `p`; `upper` writes `E`, `INF` and `NAN`. -/
def Binary64.toPrecision (x : Binary64) (style : FloatStyle) (p : Nat) (alternate upper : Bool) :
    String :=
  match x with
  | .nan => if upper then "NAN" else "nan"
  | .infinite negative => (if negative then "-" else "") ++ (if upper then "INF" else "inf")
  | .finite negative m q =>
    let mark := if upper then 'E' else 'e'
    let body := match style with
      | .scientific =>
        let (ds, point) := Decimal.significant m q (p + 1)
        Decimal.spell ds point true (p + 1) alternate mark
      | .fixed =>
        let (ds, point) := Decimal.places m q p
        Decimal.spell ds point false (point + p) alternate mark
      | .general =>
        let p := max p 1
        let (ds, point) := Decimal.significant m q p
        Decimal.spell ds point (point ≤ -4 ∨ point > p) (if alternate then p else ds.length) alternate mark
    (if negative then "-" else "") ++ String.ofList body

example : (Binary64.ofFloat 1.5).toPrecision .scientific 6 false false = "1.500000e+00" := by
  decide +kernel

example : (Binary64.ofFloat 2.5).toPrecision .fixed 0 false false = "2" := by decide +kernel

example : (Binary64.ofFloat 0.0001).toPrecision .general 6 true false = "0.000100000" := by
  decide +kernel

end Chaining
