import Chaining.Template.Convert

/-!
# Filling a template

A template is filled with one argument. Each conversion takes the argument once: a second
conversion finds none left, and an argument that no conversion takes is left over, which is a
refusal too unless the argument is a mapping. A dictionary or a list counts as a mapping: a
conversion with a key takes the dictionary's value for that key instead, as a fresh argument of
its own.

The pieces are filled left to right and the first refusal ends the filling, so a refusal of an
earlier conversion wins over anything later in the template. Within one conversion the order is
the key, then a `*` width, then a `*` precision, then the value.

* `Supply`: the argument and whether a conversion took it.
* `Template.fill`: the text of a template filled with an argument.
-/

namespace Chaining

namespace Template

/-- The argument of a template as the conversions take it, and whether a conversion took it. -/
structure Supply where
  value : Datum
  taken : Bool

/-- Take the argument, once. -/
def Supply.take (s : Supply) : Except Fault (Datum × Supply) :=
  if s.taken then .error (.template .missingArgument) else .ok (s.value, { s with taken := true })

/-- The argument as a mapping for keys: a dictionary or a list. -/
def mappingOf : Datum → Option Datum
  | .dict es => some (.dict es)
  | .list xs => some (.list xs)
  | _ => none

/-- The value of a key in a mapping; a list has no values by text. -/
def lookupKey (m : Datum) (k : Text) : Except Fault Datum :=
  match m with
  | .dict es =>
    match Datum.lookupEntry k es with
    | some v => .ok v
    | none => .error (.template (.missingKey k))
  | _ => .error (.template .keyOnList)

/-- The integer a `*` takes from the argument. -/
def starOf (s : Supply) : Except Fault (Int × Supply) := do
  let (v, s) ← s.take
  match v with
  | .int n => pure (n, s)
  | .bool b => pure (if b then 1 else 0, s)
  | _ => throw (.template .starNeedsInt)

/-- The width: as given, or taken from the argument, where a negative width pads on the right.
The second component says whether it asks for the right. -/
def settleWidth : Option Amount → Supply → Except Fault (Option Nat × Bool × Supply)
  | none, s => .ok (none, false, s)
  | some (.given n), s => .ok (some n, false, s)
  | some .tooBig, _ => .error (.template .widthTooBig)
  | some .fromArgument, s => do
    let (n, s) ← starOf s
    if n > widthLimit ∨ n < -(widthLimit : Int) - 1 then throw (.template .widthTooWide)
    pure (some n.natAbs, n < 0, s)

/-- The precision: as given, or taken from the argument, where a negative precision is zero. -/
def settlePrecision : Option Amount → Supply → Except Fault (Option Nat × Supply)
  | none, s => .ok (none, s)
  | some (.given n), s => .ok (some n, s)
  | some .tooBig, _ => .error (.template .precisionTooBig)
  | some .fromArgument, s => do
    let (n, s) ← starOf s
    if n > precisionLimit ∨ n < -(precisionLimit : Int) - 1 then throw (.template .precisionTooWide)
    pure (some n.toNat, s)

/-- The text of one piece (none when it is oversized), and the argument after it. -/
def fillPiece (mapping : Option Datum) (s : Supply) :
    Piece → Except Fault (Option (List CodePoint) × Supply)
  | .literal c => .ok (some [c], s)
  | .percent => .ok (some [.scalar '%'], s)
  | .openKey => .error (.template (if mapping.isNone then .needsMapping else .incompleteKey))
  | .spec sp => do
    let s ← match sp.key, mapping with
      | none, _ => pure s
      | some _, none => throw (.template .needsMapping)
      | some k, some m => do pure ⟨← lookupKey m k, false⟩
    let (width, left, s) ← settleWidth sp.width s
    let (precision, s) ← settlePrecision sp.precision s
    match sp.conversion with
    | none => throw (.template .incomplete)
    | some (c, i) =>
      let (v, s) ← s.take
      let d : Directive := ⟨sp.left || left, sp.plus, sp.blank, sp.alternate, sp.zero, width,
        precision, c, i⟩
      pure (← d.render v, s)

/-- The text of the pieces in order (none when one of them is oversized), and the argument after
them. -/
def fillPieces (mapping : Option Datum) :
    List Piece → Supply → Except Fault (Option (List CodePoint) × Supply)
  | [], s => .ok (some [], s)
  | p :: ps, s => do
    let (out, s) ← fillPiece mapping s p
    let (rest, s) ← fillPieces mapping ps s
    pure (out.bind fun o => rest.map (o ++ ·), s)

/-- The template `t` filled with the argument `arg`. An oversized text is refused for want of
memory, but only once the whole template is filled without another refusal. -/
def fill (t : Text) (arg : Datum) : Except Fault Text := do
  let mapping := mappingOf arg
  let (out, s) ← fillPieces mapping (pieces t) ⟨arg, false⟩
  if !s.taken && mapping.isNone then throw (.template .unusedArgument)
  match out with
  | some cs => pure ⟨cs⟩
  | none => throw (.template .outOfMemory)

example : (fill (.ofString "x%sy") (.int 3)).toOption = some (.ofString "x3y") := by decide +kernel

example : (fill (.ofString "%05.1f|%-4d|%#x") (.int 3)).toOption = none := by decide +kernel

end Template

end Chaining
