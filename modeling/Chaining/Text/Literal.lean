import Chaining.Text.Numeral
import Chaining.Text.Printable

/-!
# The quoted literal form of a text

A text is shown in messages as a literal: between single quotes, or between double quotes when
it holds a single quote and no double quote. Inside, every code point that is not printable is
written as an escape, so that the literal is readable and shows every surrogate.

* `Text.quoteOf`: which quote the literal uses.
* `CodePoint.escaped`: how one code point is written inside quotes `q`.
* `Text.literal`: the quoted literal.
-/

namespace Chaining

/-- The code point `c` given as a character. -/
private def cp (c : Char) : CodePoint := .scalar c

/-- How one code point is written inside a literal quoted with `q`: the quote and the backslash
after a backslash; tab, line feed and carriage return as `\t`, `\n`, `\r`; the other ASCII
controls and delete as `\xhh`; other ASCII characters and printable code points as they are;
the rest as `\xhh`, `\uhhhh` or `\Uhhhhhhhh`, the shortest that holds the number. -/
def CodePoint.escaped (q : Char) (p : CodePoint) : List CodePoint :=
  let n := p.toNat
  let code (s : String) : List CodePoint := s.toList.map .scalar
  if p = cp q ∨ p = cp '\\' then [cp '\\', p]
  else if p = cp '\t' then code "\\t"
  else if p = cp '\n' then code "\\n"
  else if p = cp '\r' then code "\\r"
  else if n < 0x20 ∨ n = 0x7F then code ("\\x" ++ Numeral.hex 2 n)
  else if n < 0x7F then [p]
  else if p.isPrintable then [p]
  else if n ≤ 0xFF then code ("\\x" ++ Numeral.hex 2 n)
  else if n ≤ 0xFFFF then code ("\\u" ++ Numeral.hex 4 n)
  else code ("\\U" ++ Numeral.hex 8 n)

namespace Text

/-- The quote of the literal: a double quote when the text holds a single quote and no double
quote, a single quote otherwise. -/
def quoteOf (t : Text) : Char :=
  if cp '\'' ∈ t.points ∧ cp '"' ∉ t.points then '"' else '\''

/-- The quoted literal of the text. -/
def literal (t : Text) : Text :=
  let q := t.quoteOf
  ⟨cp q :: t.points.flatMap (CodePoint.escaped q) ++ [cp q]⟩

example : (literal (ofString "it's")).points = (ofString "\"it's\"").points := by decide

example : (literal ⟨[cp '"', .surrogate 0, cp '\'']⟩) = ofString "'\"\\ud800\\''" := by decide +kernel

example : (literal ⟨[cp '\x00', .surrogate 0, cp '\x7f']⟩) = ofString "'\\x00\\ud800\\x7f'" := by decide +kernel

end Text

end Chaining
