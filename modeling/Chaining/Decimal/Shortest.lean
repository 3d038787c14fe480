import Chaining.Binary64

/-!
# The shortest decimal that reads back

A positive finite binary64 value `m * 2^q` stands for the interval of reals that round to it:
from halfway to its lower neighbour to halfway to its upper neighbour, both ends included when
`m` is even. The decimal chosen for it is the one with the fewest significant digits that lies
in that interval; of two such decimals the nearer to the value, and of two equally near the one
whose last digit is even.

* `Decimal`: `digits * 10^exp`.
* `readsBack`: whether a decimal lies in the interval of a value, by exact comparison.
* `shortest`: the search over one, two, … seventeen significant digits. On the grid of each
  length only the two grid points around the value need a test: if any point of the grid lies in
  the interval, so does one of those two.
-/

namespace Chaining

/-- The decimal `digits * 10^exp`. -/
structure Decimal where
  digits : Nat
  exp : Int
deriving DecidableEq, Repr

namespace Decimal

/-- The exact order of `a * 10^i` against `n * 2^j`. -/
def cmpScaled (a : Nat) (i : Int) (n : Nat) (j : Int) : Ordering :=
  compare (a * Nat.pow 10 i.toNat * Nat.pow 2 (-j).toNat) (n * Nat.pow 2 j.toNat * Nat.pow 10 (-i).toNat)

/-- Whether `d` lies among the reals that round to `m * 2^q` (nearest, ties to even): between
the midpoints to the two neighbours, ends included when `m` is even. The neighbour below is half
as far when `m` is the least significand of its binade (`narrow`). -/
def readsBack (m : Nat) (q : Int) (narrow : Bool) (d : Decimal) : Bool :=
  let lo := if narrow then 4 * m - 1 else 4 * m - 2
  let hi := 4 * m + 2
  let incl := m % 2 == 0
  let cl := cmpScaled d.digits d.exp lo (q - 2)
  let ch := cmpScaled d.digits d.exp hi (q - 2)
  (cl == .gt || (incl && cl == .eq)) && (ch == .lt || (incl && ch == .eq))

/-- The number of decimal digits of `n`; one for zero. -/
def digitCount (n : Nat) : Nat := (Nat.toDigits 10 n).length

/-- The `k` with `10^(k-1) ≤ m * 2^q < 10^k`, for `m > 0`: scaled by `10^L` with `L = -q` when `q`
is negative, the value is at least one and `k + L` is the digit count of its integer part. -/
def scale (m : Nat) (q : Int) : Int :=
  let l := (-q).toNat
  (digitCount (m * Nat.pow 2 q.toNat * Nat.pow 10 l / Nat.pow 2 l) : Int) - l

/-- `⌊m * 2^q / 10^s⌋`, and whether twice the value is below, at or above `2 * that + 1` times
`10^s`: which of the two grid points around the value is nearer. -/
def floorOnGrid (m : Nat) (q s : Int) : Nat × Ordering :=
  let num := m * Nat.pow 2 q.toNat * Nat.pow 10 (-s).toNat
  let den := Nat.pow 2 (-q).toNat * Nat.pow 10 s.toNat
  let a := num / den
  (a, compare (2 * num) ((2 * a + 1) * den))

/-- The nearer of the grid points `a` and `a + 1` (scaled by `10^s`) that read back, if any;
an exact tie goes to the even one. -/
def pick (m : Nat) (q : Int) (narrow : Bool) (s : Int) : Option Decimal :=
  let (a, side) := floorOnGrid m q s
  let lowOk := readsBack m q narrow ⟨a, s⟩
  let highOk := readsBack m q narrow ⟨a + 1, s⟩
  match lowOk, highOk with
  | true, true =>
    match side with
    | .lt => some ⟨a, s⟩
    | .gt => some ⟨a + 1, s⟩
    | .eq => some (if a % 2 == 0 then ⟨a, s⟩ else ⟨a + 1, s⟩)
  | true, false => some ⟨a, s⟩
  | false, true => some ⟨a + 1, s⟩
  | false, false => none

/-- The decimal with its trailing zeros moved into the exponent. -/
def strip (d : Decimal) : Decimal :=
  if d.digits ≠ 0 ∧ d.digits % 10 = 0 then strip ⟨d.digits / 10, d.exp + 1⟩ else d
termination_by d.digits
decreasing_by omega

/-- The shortest decimal that reads back as `m * 2^q`, for `m > 0`: the first of one to
seventeen significant digits whose grid has a point in the interval, nearest to the value.
Seventeen digits always suffice; the value's own seventeen-digit rounding stands last. -/
def shortest (m : Nat) (q : Int) (narrow : Bool) : Decimal :=
  let k := scale m q
  let found := (List.range 17).findSome? fun i => pick m q narrow (k - (i + 1 : Nat))
  strip (found.getD ⟨(floorOnGrid m q (k - 17)).1, k - 17⟩)

/-- The shortest decimal of a positive finite value, by its bits. -/
def ofFinite (m : Nat) (q : Int) : Decimal :=
  shortest m q (m == Nat.pow 2 52 && q > -1074)

example : ofFinite (3 * 2 ^ 51) (-52) = ⟨15, -1⟩ := by decide +kernel

end Decimal

end Chaining
