import Chaining.Template.Syntax
import Chaining.Fault
import Chaining.Datum.Render
import Chaining.Decimal.Fixed
import Chaining.Binary64.Arith

/-!
# Converting one argument

A conversion turns one datum into text, then pads it to the width.

* `s`, `r`, `a`: the datum as shown, its literal, and its literal with every non-ASCII code point
  escaped; a precision cuts the text to that many code points.
* `d`, `i`, `u`: an integer in base ten; `o`, `x`, `X`: in base eight or sixteen, with `0o`,
  `0x` or `0X` in the alternate form. Truth values count as `0` and `1`; a float is truncated
  toward zero for base ten and refused for the others. A precision is a least number of digits.
* `e`, `E`, `f`, `F`, `g`, `G`: a float in the style of `Binary64.toPrecision`, six places unless a
  precision is given; an integer is first rounded to a float.
* `c`: one code point, given as an integer or as a text of length one.

Numbers take a sign before the padding when the flags ask for one, and the flag `0` pads them
with zeros between the sign (and base mark) and the digits; all else is padded with spaces, on
the left unless the flag `-` asks for the right.

* `Directive`: a conversion with its width and precision settled.
* `Numeric.toBinary64`: the float a number stands for, refused past the largest float.
* `Directive.render`: the padded text of a datum.
-/

namespace Chaining

/-- The float a number stands for: an integer rounds to the nearest float and must not round past
the largest one. -/
def Numeric.toBinary64 : Numeric → Except Fault Binary64
  | .float x => .ok x
  | .int n =>
    match Binary64.ofInt n with
    | .infinite _ => .error .intTooLarge
    | b => .ok b

namespace Template

/-- A conversion with its width and precision settled: the flags of `Spec`, the least width, the
precision, and the conversion character with its index in the template. -/
structure Directive where
  left : Bool
  plus : Bool
  blank : Bool
  alternate : Bool
  zero : Bool
  width : Option Nat
  precision : Option Nat
  conversion : CodePoint
  index : Nat

/-- The most code points the text of one conversion is built with. A longer text is only marked
as oversized: the filling goes on, so that a later refusal still wins, and the text is refused
for want of memory only if nothing else is. -/
def capacity : Nat := Nat.pow 2 24

/-- The least width refused at once for want of memory: room for that many code points cannot be
allocated. -/
def unallocatable : Nat := Nat.pow 2 40

/-- The literal of a text with each code point past ASCII escaped as `\xhh`, `\uhhhh` or
`\Uhhhhhhhh`. -/
def asciiEscaped (t : Text) : Text :=
  ⟨t.points.flatMap fun p =>
    let n := p.toNat
    if n < 0x80 then [p]
    else
      let s := if n ≤ 0xFF then "\\x" ++ Numeral.hex 2 n
        else if n ≤ 0xFFFF then "\\u" ++ Numeral.hex 4 n else "\\U" ++ Numeral.hex 8 n
      s.toList.map .scalar⟩

/-- Whether the integer conversion `c` writes base eight or sixteen. -/
def nonDecimal (c : Char) : Bool := c == 'o' || c == 'x' || c == 'X'

/-- The integer an integer conversion `c` takes from a datum. -/
def integerOf (c : Char) (v : Datum) : Except Fault Int :=
  match v with
  | .int n => .ok n
  | .bool b => .ok (if b then 1 else 0)
  | .float x =>
    if nonDecimal c then .error (.template (.needsInteger c "float")) else
    match Binary64.ofFloat x with
    | .nan => .error (.template .nanToInteger)
    | .infinite _ => .error (.template .infinityToInteger)
    | .finite negative m q =>
      let a : Int := if 0 ≤ q then m * Nat.pow 2 q.toNat else m / Nat.pow 2 (-q).toNat
      .ok (if negative then -a else a)
  | d =>
    .error (.template (if nonDecimal c then .needsInteger c d.typeName else .needsReal c d.typeName))

/-- The text of `n` by the integer conversion `c`: sign, base mark in the alternate form, and the
digits, zero-filled to the precision. -/
def integerText (c : Char) (alternate : Bool) (precision : Option Nat) (n : Int) : String :=
  let base := if c == 'o' then 8 else if nonDecimal c then 16 else 10
  let ds := Numeral.padLeft (precision.getD 0) '0' (Nat.toDigits base n.natAbs)
  let ds := if c == 'X' then ds.map Char.toUpper else ds
  let mark := if !alternate || base == 10 then "" else "0" ++ c.toString
  (if n < 0 then "-" else "") ++ mark ++ String.ofList ds

/-- The float a float conversion takes from a datum. -/
def floatOf (v : Datum) : Except Fault Binary64 :=
  match v.numeric? with
  | some x => x.toBinary64
  | none => .error (.template (.needsFloat v.typeName))

/-- The code point a character conversion takes from a datum. -/
def charOf (v : Datum) : Except Fault CodePoint :=
  match v with
  | .str ⟨[p]⟩ => .ok p
  | .int n => if 0 ≤ n ∧ n ≤ 0x10FFFF then .ok (CodePoint.ofNat n.toNat) else .error (.template .charOutOfRange)
  | .bool b => .ok (CodePoint.ofNat (if b then 1 else 0))
  | _ => .error (.template .needsChar)

/-- The text of the characters of a string. -/
def points (s : String) : List CodePoint := s.toList.map .scalar

namespace Directive

/-- The float style of a float conversion character. -/
def floatStyle : Char → Option FloatStyle
  | 'e' | 'E' => some .scientific
  | 'f' | 'F' => some .fixed
  | 'g' | 'G' => some .general
  | _ => none

/-- The precision a float conversion in style `style` uses. The scientific style counts its
`p + 1` significant digits in a signed 32-bit integer, and at the largest precision the count
wraps around below one, which means a single digit: the precision `0`. -/
def floatPrecision (style : FloatStyle) (precision : Option Nat) : Nat :=
  match precision with
  | none => 6
  | some p => if style == .scientific && p == precisionLimit then 0 else p

/-- Whether the text of the finite float conversion is oversized: its precision is past the
capacity and pads the digits with zeros, which the general style does only in the alternate
form. -/
def floatOversized (style : FloatStyle) (p : Nat) (alternate : Bool) (x : Binary64) : Bool :=
  match x with
  | .finite _ _ _ => p ≥ capacity && (style != .general || alternate)
  | _ => false

/-- The unpadded text of `v`, none when a precision past the capacity makes it oversized, and
whether it is a number (which takes sign and zero padding). -/
def body (d : Directive) (v : Datum) : Except Fault (Option (List CodePoint) × Bool) :=
  match d.conversion.char? with
  | some 's' => .ok (some v.display.points, false)
  | some 'r' => .ok (some v.literal.points, false)
  | some 'a' => .ok (some (asciiEscaped v.literal).points, false)
  | some 'c' => (charOf v).map fun p => (some [p], false)
  | some c =>
    if c == 'd' || c == 'i' || c == 'u' || nonDecimal c then do
      let n ← integerOf c v
      if d.precision.any (· > precisionLimit - 3) then throw (.template .precisionTooLarge)
      if d.precision.any (· ≥ capacity) then pure (none, true)
      else pure (some (points (integerText c d.alternate d.precision n)), true)
    else match floatStyle c with
      | some style => do
        let x ← floatOf v
        let p := floatPrecision style d.precision
        if floatOversized style p d.alternate x then pure (none, true)
        else pure (some (points (x.toPrecision style p d.alternate c.isUpper)), true)
      | none => .error (.template (.unsupported d.conversion d.index))
  | none => .error (.template (.unsupported d.conversion d.index))

/-- The text padded to the width. A number's sign (or the sign the flags give it) and, in the
alternate form, its base mark stand before zero padding and after space padding; texts are first
cut to the precision. -/
def pad (d : Directive) (numeric : Bool) (body : List CodePoint) : List CodePoint :=
  if d.width.all (· ≤ body.length) && d.precision.all (body.length ≤ ·) && !(d.plus || d.blank) then
    body
  else
  let fill : Char := if numeric && d.zero then '0' else ' '
  let cut := d.conversion.is 's' || d.conversion.is 'r' || d.conversion.is 'a'
  let body := match d.precision with
    | some p => if cut then body.take p else body
    | none => body
  let (sign, body) : List CodePoint × List CodePoint :=
    if !numeric then ([], body)
    else match body with
      | c :: rest =>
        if c.is '-' || c.is '+' then ([c], rest)
        else if d.plus then ([.scalar '+'], body)
        else if d.blank then ([.scalar ' '], body)
        else ([], body)
      | [] => ([], body)
  let len := body.length
  let width := max (d.width.getD 0) len
  let width := if !sign.isEmpty && width > len then width - 1 else width
  let marked := d.alternate && (d.conversion.is 'x' || d.conversion.is 'X' || d.conversion.is 'o')
  let (mark, body) := if marked then (body.take 2, body.drop 2) else ([], body)
  let width := if marked then width - 2 else width
  let len := body.length
  let fillLeft := if width > len && !d.left then List.replicate (width - len) (CodePoint.scalar fill) else []
  let width := if width > len && !d.left then len else width
  let fillRight := List.replicate (width - len) (CodePoint.scalar ' ')
  if fill == '0' then sign ++ mark ++ fillLeft ++ body ++ fillRight
  else fillLeft ++ sign ++ mark ++ body ++ fillRight

/-- The padded text of `v` by the directive, none when it is oversized; a width that cannot be
allocated is refused. -/
def render (d : Directive) (v : Datum) : Except Fault (Option (List CodePoint)) := do
  let (b, numeric) ← d.body v
  if d.width.any (· ≥ unallocatable) then throw (.template .outOfMemory)
  if d.width.any (· ≥ capacity) then pure none else pure (b.map (d.pad numeric))

end Directive

end Template

end Chaining
