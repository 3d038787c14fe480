import Chaining.Decimal.Shortest
import Chaining.Text.Numeral

/-!
# How a float is written

A float is written with the digits of its shortest decimal (`Decimal.shortest`). Let `e` be the
power of ten of the leading digit. From `e = -4` up to `e = 15` the number is written
positionally, with at least one digit after the point (`12.0`, `0.0001`); outside that range it
is written as one digit, the other digits after a point, and `e`, a sign and at least two
exponent digits (`1e+16`, `1.5e-05`). Zero keeps its sign (`-0.0`); the other values are `nan`,
`inf` and `-inf`.

* `Decimal.layout`: the text of a positive decimal.
* `Binary64.toText`: the text of any value.
-/

namespace Chaining

namespace Decimal

/-- The text of a positive decimal, positional when the leading digit's power of ten lies in
`[-4, 16)` and scientific otherwise. -/
def layout (d : Decimal) : String :=
  let ds := Nat.toDigits 10 d.digits
  let n := ds.length
  -- the point stands after `point` digits: the value is `0.ds * 10^point`
  let point : Int := d.exp + n
  let zeros (k : Nat) : List Char := List.replicate k '0'
  if point ≤ -4 ∨ point > 16 then
    let e := point - 1
    let mant := match ds with
      | c :: rest => if rest.isEmpty then [c] else c :: '.' :: rest
      | [] => []
    let sign := if e < 0 then '-' else '+'
    String.ofList (mant ++ 'e' :: sign :: Numeral.padLeft 2 '0' (Nat.toDigits 10 e.natAbs))
  else if point ≤ 0 then
    String.ofList ('0' :: '.' :: zeros (-point).toNat ++ ds)
  else if n ≤ point.toNat then
    String.ofList (ds ++ zeros (point.toNat - n) ++ ['.', '0'])
  else
    String.ofList (ds.take point.toNat ++ '.' :: ds.drop point.toNat)

end Decimal

/-- The text of a binary64 value: its shortest decimal laid out by `Decimal.layout`, with a
minus sign when negative; zero as `0.0` or `-0.0`; `nan`, `inf`, `-inf`. -/
def Binary64.toText : Binary64 → String
  | .nan => "nan"
  | .infinite negative => if negative then "-inf" else "inf"
  | .finite negative m q =>
    let body := if m = 0 then "0.0" else (Decimal.ofFinite m q).layout
    if negative then "-" ++ body else body

example : (Binary64.ofFloat 1.5).toText = "1.5" := by decide +kernel

example : (Binary64.ofFloat 1e16).toText = "1e+16" := by decide +kernel

example : (Binary64.ofFloat 0.00001).toText = "1e-05" := by decide +kernel

example : (Binary64.ofFloat 100).toText = "100.0" := by decide +kernel

end Chaining
