import Chaining.Text.Basic

/-!
# Numerals in text

The numerals that messages and listings write: decimal integers, lower-case hexadecimal
padded to a width, and decimal naturals padded with zeros to a least width.

* `Numeral.hex w n`: `n` in base sixteen, lower case, with at least `w` digits.
* `Numeral.padded w n`: `n` in base ten, with at least `w` digits.
* `Numeral.int n`: `n` in base ten, with a minus sign when negative.
-/

namespace Chaining

namespace Numeral

/-- `cs` with copies of `c` in front, up to length `w`. -/
def padLeft (w : Nat) (c : Char) (cs : List Char) : List Char :=
  List.replicate (w - cs.length) c ++ cs

theorem length_padLeft (w : Nat) (c : Char) (cs : List Char) :
    (padLeft w c cs).length = max w cs.length := by
  simp only [padLeft, List.length_append, List.length_replicate]
  omega

/-- `n` in base sixteen, lower case, with at least `w` digits. -/
def hex (w n : Nat) : String := String.ofList (padLeft w '0' (Nat.toDigits 16 n))

/-- `n` in base ten, with at least `w` digits. -/
def padded (w n : Nat) : String := String.ofList (padLeft w '0' (Nat.toDigits 10 n))

/-- `n` in base ten, with a minus sign when negative. -/
def int (n : Int) : String :=
  match n with
  | .ofNat k => String.ofList (Nat.toDigits 10 k)
  | .negSucc k => String.ofList ('-' :: Nat.toDigits 10 (k + 1))

example : hex 4 0xd800 = "d800" ∧ hex 2 7 = "07" ∧ padded 4 195 = "0195" ∧ padded 4 12345 = "12345" := by
  decide

example : int (-42) = "-42" ∧ int 0 = "0" := by decide

end Numeral

end Chaining
