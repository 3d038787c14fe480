import Chaining.Table.Shape
import Chaining.Table.Row
import Chaining.Key

/-!
# Tables

A table is a fixed row of buckets, each the chain of the entries whose key falls in it, the
number of entries it has counted, and a mark that tells whether the table was released. The count
is kept apart from the chains: a store that adds an entry raises it by one. Releasing empties the
row, sets the count to zero and keeps the bucket count, so a released table still knows its shape
but holds nothing.

* `Table`: the state of a table.
* `Table.create`: a table with every bucket empty.
* `Table.live`: the refusal every operation but a few starts with, once the table is released.
* `Table.bucketOf`, `Table.chainAt`, `Table.find`: where a key lives and what is found there.
* `Table.entries`, `Table.size`: every entry in bucket order, then chain order; their number,
  as a walk over the chains finds it.
* `Table.lookup`: the table as a finite map from keys to values.

## Results

* `size_create`, `entries_create`: a new table holds nothing.
* `find_create`, `lookup_create`: nothing is found in a new table.
-/

namespace Chaining

/-- A chained hash table: the bucket count as the table was given it, the chain of every bucket
by index (empty once the table is released), the number of entries as the table counts them, and
whether the table was released. -/
structure Table where
  shape : BucketCount
  buckets : Row Key Text
  count : Nat
  freed : Bool

namespace Table

/-- A table with `c` empty buckets. -/
def create (c : BucketCount) : Table := ⟨c, Row.empty, 0, false⟩

/-- Refuse once the table is released. -/
def live (t : Table) : Except Fault Unit := if t.freed then .error .freed else .ok ()

/-- The bucket of key `k`. -/
def bucketOf (t : Table) (k : Key) : Nat := k.bucket t.shape.toNat

/-- The chain of bucket `i`. -/
def chainAt (t : Table) (i : Nat) : Chain Key Text := t.buckets.get i

/-- The entry of key `k`: its link in its bucket's chain and its value. -/
def find (t : Table) (k : Key) : Option (Nat × Text) := (t.chainAt (t.bucketOf k)).locate k

/-- Every entry, bucket by bucket from bucket `0`, each bucket from the head of its chain. -/
def entries (t : Table) : List (Key × Text) := t.buckets.entries

/-- The number of entries on the chains. -/
def size (t : Table) : Nat := t.entries.length

/-- The table read as a finite map: the value of the first entry with key `k` on a walk over
every chain, whichever bucket holds it. -/
def lookup (t : Table) (k : Key) : Option Text := (t.entries.find? (·.1 == k)).map (·.2)

/-- The buckets that hold entries, by index, each with its chain. -/
def occupied (t : Table) : List (Nat × Chain Key Text) := t.buckets.occupied

theorem entries_create (c : BucketCount) : (create c).entries = [] := by
  rfl

theorem size_create (c : BucketCount) : (create c).size = 0 := by
  simp [size, entries_create]

theorem find_create (c : BucketCount) (k : Key) : (create c).find k = none := by
  simp [find, chainAt, create, Row.get_empty, Chain.locate]

theorem lookup_create (c : BucketCount) (k : Key) : (create c).lookup k = none := by
  simp [lookup, entries_create]

end Table

end Chaining
