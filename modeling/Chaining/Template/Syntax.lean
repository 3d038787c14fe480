import Chaining.Text.Basic

/-!
# Templates and their conversions

A template is a text in which `%` starts a conversion:

    % [(key)] [flags] [width] [.precision] [h | l | L] conversion

The key names an entry of a mapping argument; the flags are `-` (pad on the right), `+` (always
a sign), a space (a space for the sign of a positive number), `#` (the alternate form) and `0`
(pad numbers with zeros); the width and the precision are digits, or `*` to take them from the
argument; one length letter `h`, `l` or `L` is skipped. `%%` stands for a percent sign.

The template is read once, left to right, one character at a time. A conversion that the
template ends inside, or whose width or precision digits run past a machine integer, is the last
piece read: what follows is never reached.

* `Amount`, `Spec`, `Piece`: the parts of a template.
* `Stage`: where the reading stands inside a conversion.
* `Template.pieces`: the pieces of a template.
-/

namespace Chaining

namespace Template

/-- A width or a precision as the template gives it: digits, `*` for one taken from the argument,
or digits past the largest machine integer, where reading stopped. -/
inductive Amount where
  | given (n : Nat)
  | fromArgument
  | tooBig
deriving DecidableEq, Repr

/-- A conversion as read, possibly unfinished: the key between parentheses; the flags `-` (pad on
the right), `+` and space (a sign before a positive number), `#` (the alternate form) and `0`
(pad numbers with zeros); the width and precision; and the conversion character with its index,
none when the template ended first. -/
structure Spec where
  key : Option Text := none
  left : Bool := false
  plus : Bool := false
  blank : Bool := false
  alternate : Bool := false
  zero : Bool := false
  width : Option Amount := none
  precision : Option Amount := none
  conversion : Option (CodePoint × Nat) := none
deriving Repr

/-- A piece of a template: a character written as it is, `%%`, a conversion, or a key whose
parenthesis the template never closes. -/
inductive Piece where
  | literal (c : CodePoint)
  | percent
  | spec (s : Spec)
  | openKey
deriving Repr

/-- Where the reading stands: outside a conversion, right after `%`, inside a key (at a depth of
parentheses, with its characters so far), among the flags, inside width digits or after a `*`
width, right after the point or inside precision digits or after a `*` precision, and after a
length letter, where the next character is the conversion. -/
inductive Stage where
  | text
  | start
  | key (depth : Nat) (chars : List CodePoint)
  | flags (s : Spec)
  | width (s : Spec) (n : Nat)
  | afterWidth (s : Spec)
  | point (s : Spec)
  | precision (s : Spec) (n : Nat)
  | afterPrecision (s : Spec)
  | conversion (s : Spec)

/-- What one character does: emit pieces and move on, or end the reading with a last piece. -/
inductive Move where
  | go (out : List Piece) (next : Stage)
  | halt (last : Piece)

/-- The largest width: the largest signed 64-bit integer. -/
def widthLimit : Nat := Nat.pow 2 63 - 1

/-- The largest precision: the largest signed 32-bit integer. -/
def precisionLimit : Nat := Nat.pow 2 31 - 1

/-- The value of a decimal digit. -/
def digit? (c : CodePoint) : Option Nat :=
  match c.char? with
  | some ch => if ch.isDigit then some (ch.toNat - '0'.toNat) else none
  | none => none

/-- The conversion character `c` at index `i` ends the spec. -/
def finish (s : Spec) (c : CodePoint) (i : Nat) : Move :=
  .go [.spec { s with conversion := some (c, i) }] .text

/-- A length letter is skipped; any other character is the conversion. -/
def atLength (s : Spec) (c : CodePoint) (i : Nat) : Move :=
  if c.is 'h' || c.is 'l' || c.is 'L' then .go [] (.conversion s) else finish s c i

/-- A point starts the precision; any other character goes on to the length. -/
def atPrecision (s : Spec) (c : CodePoint) (i : Nat) : Move :=
  if c.is '.' then .go [] (.point s) else atLength s c i

/-- `*` or a digit starts the width; any other character goes on to the precision. -/
def atWidth (s : Spec) (c : CodePoint) (i : Nat) : Move :=
  if c.is '*' then .go [] (.afterWidth { s with width := some .fromArgument })
  else match digit? c with
    | some d => .go [] (.width s d)
    | none => atPrecision s c i

/-- A flag character sets its flag; any other character goes on to the width. -/
def atFlags (s : Spec) (c : CodePoint) (i : Nat) : Move :=
  if c.is '-' then .go [] (.flags { s with left := true })
  else if c.is '+' then .go [] (.flags { s with plus := true })
  else if c.is ' ' then .go [] (.flags { s with blank := true })
  else if c.is '#' then .go [] (.flags { s with alternate := true })
  else if c.is '0' then .go [] (.flags { s with zero := true })
  else atWidth s c i

/-- What the character `c` at index `i` does in stage `st`. -/
def step (st : Stage) (c : CodePoint) (i : Nat) : Move :=
  match st with
  | .text => if c.is '%' then .go [] .start else .go [.literal c] .text
  | .start =>
    if c.is '%' then .go [.percent] .text
    else if c.is '(' then .go [] (.key 1 [])
    else atFlags {} c i
  | .key depth chars =>
    if c.is ')' then
      if depth ≤ 1 then .go [] (.flags { key := some ⟨chars⟩ }) else .go [] (.key (depth - 1) (chars ++ [c]))
    else if c.is '(' then .go [] (.key (depth + 1) (chars ++ [c]))
    else .go [] (.key depth (chars ++ [c]))
  | .flags s => atFlags s c i
  | .width s n =>
    match digit? c with
    | some d =>
      if n > (widthLimit - d) / 10 then .halt (.spec { s with width := some .tooBig })
      else .go [] (.width s (n * 10 + d))
    | none => atPrecision { s with width := some (.given n) } c i
  | .afterWidth s => atPrecision s c i
  | .point s =>
    if c.is '*' then .go [] (.afterPrecision { s with precision := some .fromArgument })
    else match digit? c with
      | some d => .go [] (.precision s d)
      | none => atLength { s with precision := some (.given 0) } c i
  | .precision s n =>
    match digit? c with
    | some d =>
      if n > (precisionLimit - d) / 10 then .halt (.spec { s with precision := some .tooBig })
      else .go [] (.precision s (n * 10 + d))
    | none => atLength { s with precision := some (.given n) } c i
  | .afterPrecision s => atLength s c i
  | .conversion s => finish s c i

/-- The last piece when the template ends in stage `st`: an unfinished conversion, or nothing
outside one. -/
def close : Stage → List Piece
  | .text => []
  | .start => [.spec {}]
  | .key _ _ => [.openKey]
  | .flags s | .afterWidth s | .afterPrecision s | .conversion s => [.spec s]
  | .width s n => [.spec { s with width := some (.given n) }]
  | .point s => [.spec { s with precision := some (.given 0) }]
  | .precision s n => [.spec { s with precision := some (.given n) }]

/-- The pieces of the characters `cs`, the first at index `i`, read from stage `st`. -/
def read : List CodePoint → Nat → Stage → List Piece
  | [], _, st => close st
  | c :: rest, i, st =>
    match step st c i with
    | .go out next => out ++ read rest (i + 1) next
    | .halt last => [last]

/-- The pieces of a template. -/
def pieces (t : Text) : List Piece := read t.points 0 .text

end Template

end Chaining
