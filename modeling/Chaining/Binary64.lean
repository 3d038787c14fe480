/-!
# Binary64 values, exactly

A double-precision float is NaN, an infinity, or a finite value `± m * 2^q`. This module reads
the bits of a `Float` into that form, so that a float can be compared with an integer exactly
and its digits can be selected by integer arithmetic.

* `Binary64`: the three kinds of value; `Binary64.ofFloat` reads the bits.
* `Binary64.compareInt`: the exact order between a value and an integer; NaN is unordered.
-/

namespace Chaining

/-- A double-precision value, by kind: not a number, a signed infinity, or the finite value
`± m * 2^q`, where zero has `m = 0` and keeps its sign. -/
inductive Binary64 where
  | nan
  | infinite (negative : Bool)
  | finite (negative : Bool) (m : Nat) (q : Int)
deriving DecidableEq, Repr

namespace Binary64

/-- The value of the bits of a float: sign, then eleven bits of exponent, then fifty-two of
fraction. An exponent of all ones is an infinity or NaN, an exponent of zero a subnormal. -/
def ofBits (b : UInt64) : Binary64 :=
  let negative := b >>> 63 == 1
  let e := ((b >>> 52) &&& 0x7FF).toNat
  let f := (b &&& 0xFFFFFFFFFFFFF).toNat
  if e == 0x7FF then (if f == 0 then .infinite negative else .nan)
  else if e == 0 then .finite negative f (-1074)
  else .finite negative (Nat.pow 2 52 + f) ((e : Int) - 1075)

/-- The value of a float. -/
def ofFloat (x : Float) : Binary64 := ofBits x.toBits

/-- The exact order of a finite value `± m * 2^q` against the integer `n`. -/
def compareFinite (negative : Bool) (m : Nat) (q : Int) (n : Int) : Ordering :=
  let v : Int := if negative then -(m : Int) else m
  -- both sides times `2^(-q)` when `q` is negative
  compare (v * (Nat.pow 2 q.toNat : Int)) (n * (Nat.pow 2 (-q).toNat : Int))

/-- The exact order between the value and the integer `n`, or `none` for NaN. -/
def compareInt (x : Binary64) (n : Int) : Option Ordering :=
  match x with
  | .nan => none
  | .infinite negative => some (if negative then .lt else .gt)
  | .finite negative m q => some (compareFinite negative m q n)

/-- Whether the value is below the integer `n`; NaN is below nothing. -/
def ltInt (x : Binary64) (n : Int) : Bool := x.compareInt n == some .lt

/-- Whether the integer `n` is at most the value; NaN is above nothing. -/
def geInt (x : Binary64) (n : Int) : Bool :=
  match x.compareInt n with
  | some .gt | some .eq => true
  | _ => false

example : ofFloat 1.5 = .finite false (3 * 2 ^ 51) (-52) := by decide +kernel

example : (ofFloat 2.5).ltInt 3 = true ∧ (ofFloat 2.5).ltInt 2 = false := by decide +kernel

end Binary64

end Chaining
