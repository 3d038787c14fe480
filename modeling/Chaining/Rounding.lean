/-!
# Rounding a quotient

Every rounding in this library, to a binary64 significand or to a number of decimal places,
rounds a quotient of naturals to the nearest integer, and a tie goes to the even neighbour.

* `divRoundEven`: `n / d` rounded so.
* `div_le_divRoundEven`, `divRoundEven_le_succ_div`: the result is the quotient or one more.
-/

namespace Chaining

/-- `n / d` rounded to the nearest integer; a quotient exactly halfway between two integers goes
to the even one. -/
def divRoundEven (n d : Nat) : Nat :=
  if 2 * (n % d) > d || (2 * (n % d) == d && n / d % 2 == 1) then n / d + 1 else n / d

theorem div_le_divRoundEven (n d : Nat) : n / d ≤ divRoundEven n d := by
  unfold divRoundEven
  split <;> omega

theorem divRoundEven_le_succ_div (n d : Nat) : divRoundEven n d ≤ n / d + 1 := by
  unfold divRoundEven
  split <;> omega

example : divRoundEven 5 2 = 2 ∧ divRoundEven 7 2 = 4 ∧ divRoundEven 7 3 = 2 ∧ divRoundEven 8 3 = 3 := by
  decide

end Chaining
