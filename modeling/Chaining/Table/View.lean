import Chaining.Table.Basic

/-!
# Views of a table

Two ways to look at a table whole.

* `Table.dump`: the listing of a live table under a name: a header, a line with the number of
  entries and buckets, then one line per entry, bucket by bucket. The first entry of a bucket
  starts with the bucket's index in four digits or more, the others with `   | `. Keys, values
  and the name appear as they are.
* `Layout`, `Table.layout`: the state of a table, released or not: its count, its number of
  entries, its mark, and its occupied buckets with their chains.
-/

namespace Chaining

namespace Table

/-- The line of the entry at link `link` of bucket `i`. -/
def dumpLine (i link : Nat) (e : Key × Text) : Text :=
  .ofString (if link = 0 then Numeral.padded 4 i ++ " " else "   | ") ++ .ofString "'" ++
    e.1.text ++ .ofString "' -> '" ++ e.2 ++ .ofString "'\n"

/-- The lines of the entries of bucket `i`, in chain order. -/
def dumpChain (i : Nat) (c : Chain Key Text) : Text :=
  .join .empty (c.zipIdx.map fun (e, link) => dumpLine i link e)

/-- The listing of the table under `name`. A released table is refused: the listing would have
printed its header line by then, but what a caller is answered is the refusal alone. -/
def dump (name : Datum) (t : Table) : Except Fault Text :=
  if t.freed then .error .freed else
  .ok (.ofString "== " ++ name.display ++ .ofString " ==\n" ++
    .ofString (Numeral.int t.count ++ " entries in ") ++ t.shape.display ++ .ofString " buckets\n" ++
    .join .empty (t.occupied.map fun (i, c) => dumpChain i c))

end Table

/-- The state of a table as its fields hold it: the bucket count, the entry count, the mark, and
the occupied buckets in index order, each with its chain. -/
structure Layout where
  shape : BucketCount
  size : Nat
  freed : Bool
  buckets : List (Nat × Chain Key Text)

/-- The state of the table. -/
def Table.layout (t : Table) : Layout := ⟨t.shape, t.count, t.freed, t.occupied⟩

end Chaining
