import Chaining.Text.Basic
import Chaining.Binary64

/-!
# Arguments as callers pass them

Callers pass keys, values, bucket counts, indexes and names as loosely typed data: nothing,
a truth value, an integer of any size, a float, a text, a list or a dictionary with text keys.
The table checks each argument itself, and its refusals name the kind of datum it got.

* `Datum`: the seven kinds.
* `Datum.typeName`: the name a refusal gives the kind.
* `Datum.truthy`: whether the datum counts as true.
* `Numeric`, `Datum.numeric?`: the numeric reading, where truth values count as `0` and `1`, and
  its exact order against an integer.
* `Datum.same`: equality of data as a caller compares them: numbers by value across kinds,
  texts by code points, lists item by item, dictionaries key by key, where a NaN member equals
  a NaN member.
-/

namespace Chaining

/-- An argument as a caller passes it. A dictionary keeps its keys in order of first appearance,
each with its value. -/
inductive Datum where
  | none
  | bool (b : Bool)
  | int (n : Int)
  | float (x : Float)
  | str (t : Text)
  | list (items : List Datum)
  | dict (entries : List (Text × Datum))
deriving Inhabited

namespace Datum

/-- The name of the kind of a datum, as refusals give it. -/
def typeName : Datum → String
  | none => "NoneType"
  | bool _ => "bool"
  | int _ => "int"
  | float _ => "float"
  | str _ => "str"
  | list _ => "list"
  | dict _ => "dict"

/-- The text of a datum that is a text. -/
def text? : Datum → Option Text
  | str t => some t
  | _ => Option.none

/-- Whether the datum counts as true where a truth value is expected: everything does but
nothing, `False`, zero, and empty texts, lists and dictionaries. -/
def truthy : Datum → Bool
  | none => false
  | bool b => b
  | int n => n != 0
  | float x => x != 0.0
  | str t => !t.isEmpty
  | list items => !items.isEmpty
  | dict entries => !entries.isEmpty

/-- A dictionary from key-value pairs: a key keeps the place of its first pair and takes the
value of its last. -/
def dictOfPairs (pairs : List (Text × Datum)) : Datum :=
  .dict (pairs.foldl (fun acc p =>
    if acc.any (·.1 == p.1) then acc.map (fun e => if e.1 == p.1 then (e.1, p.2) else e)
    else acc ++ [p]) [])

end Datum

/-- The numeric reading of a datum: an integer, a truth value reading as `0` or `1`, or a float. -/
inductive Numeric where
  | int (n : Int)
  | float (x : Binary64)
deriving DecidableEq, Repr

/-- The numeric reading of a datum, if it has one: integers, truth values and floats. -/
def Datum.numeric? : Datum → Option Numeric
  | .bool b => some (.int (if b then 1 else 0))
  | .int n => some (.int n)
  | .float x => some (.float (Binary64.ofFloat x))
  | _ => Option.none

namespace Numeric

/-- The exact order against the integer `n`; `none` for NaN. -/
def compareInt : Numeric → Int → Option Ordering
  | int a, n => some (compare a n)
  | float x, n => x.compareInt n

/-- Whether the number is below the integer `n`. -/
def ltInt (x : Numeric) (n : Int) : Bool := x.compareInt n == some .lt

/-- Whether the number is at least the integer `n`. -/
def geInt (x : Numeric) (n : Int) : Bool :=
  x.compareInt n == some .gt || x.compareInt n == some .eq

end Numeric

namespace Datum

/-- Whether two numeric readings stand for the same number: integers exactly, floats as floats
(so NaN equals nothing and `0.0` equals `-0.0`). -/
def sameNumber : Datum → Datum → Bool
  | .float x, .float y => x == y
  | a, b =>
    match a.numeric?, b.numeric? with
    | some (.int m), some (.int n) => m == n
    | some (.int m), some (.float y) => y.compareInt m == some .eq
    | some (.float x), some (.int n) => x.compareInt n == some .eq
    | _, _ => false

/-- Whether both data are NaN. -/
def bothNaN : Datum → Datum → Bool
  | .float x, .float y => x.isNaN && y.isNaN
  | _, _ => false

/-- The value under key `k` in a list of entries. -/
def lookupEntry (k : Text) : List (Text × Datum) → Option Datum
  | [] => Option.none
  | (j, w) :: rest => if j == k then some w else lookupEntry k rest

mutual

/-- Equality of data as a caller compares them: numbers by value across integers, truth values
and floats; texts by code points; nothing equals nothing; lists item by item; dictionaries when
they have the same keys with equal values.

Members of lists and dictionaries are compared as one and the same value first, and only then
by value. NaN never equals itself by value, but every NaN a caller passes is one shared value,
so a NaN member equals a NaN member: `[NaN]` equals `[NaN]` while `NaN` does not equal `NaN`. -/
def same : Datum → Datum → Bool
  | .none, .none => true
  | .str s, .str t => s == t
  | .list xs, .list ys => sameList xs ys
  | .dict xs, .dict ys => xs.length == ys.length && sameEntries xs ys
  | a, b => sameNumber a b

/-- Item-by-item equality of two lists of data. -/
def sameList : List Datum → List Datum → Bool
  | [], [] => true
  | x :: xs, y :: ys => (bothNaN x y || same x y) && sameList xs ys
  | _, _ => false

/-- Whether every entry of the first dictionary has its key in `ys` with an equal value. -/
def sameEntries : List (Text × Datum) → List (Text × Datum) → Bool
  | [], _ => true
  | (k, v) :: rest, ys =>
    (match lookupEntry k ys with
     | some w => bothNaN v w || same v w
     | Option.none => false) && sameEntries rest ys

end

instance : BEq Datum := ⟨same⟩

end Datum

end Chaining
