import Chaining.Table.Basic
import Chaining.Table.Trace
import Chaining.Heap

/-!
# Table operations

The operations of a table on checked keys and values. Each but `bucketIndex` first refuses a
released table. A store that adds a key needs memory for the new entry; an overwrite changes the
value in place and needs none.

* `Memory`: whether a new entry can be had.
* `Table.set`: store a value under a key, adding the key at the tail of its chain when it is new.
* `Table.get`: the value of a key, with the event that traces the read.
* `Table.keys`, `Table.len`: the keys in bucket order, then chain order; the entry count.
* `Table.bucketIndex`: the bucket of a key, released or not.
* `Table.chainLength`: the length of one bucket's chain, the index as a caller passes it.
* `Table.addAll`: every entry of one table stored into another, stopping at the first refusal.
* `Table.unlinkAll`, `Table.free`: unlink every chain; release the table.
-/

namespace Chaining

/-- Whether memory for a new entry can be had. -/
inductive Memory where
  | available
  | exhausted
deriving DecidableEq

namespace Table

/-- Store `v` under `k`. An entry with the key takes the new value where it is; otherwise a new
entry goes after the tail of the key's bucket, at the link that is the chain's old length, and
the count goes up by one. The event says which, and where. -/
def set (mem : Memory) (k : Key) (v : Text) (t : Table) : Except Fault (Table × TraceEvent) :=
  if t.freed then .error .freed else
  let i := t.bucketOf k
  let c := t.chainAt i
  match c.locate k with
  | some (link, _) =>
    .ok ({ t with buckets := t.buckets.modify i (·.overwrite link v) }, ⟨.overwriting, i, link, k, v⟩)
  | none =>
    match mem with
    | .exhausted => .error (.entryUnavailable k.text)
    | .available =>
      .ok ({ t with buckets := t.buckets.modify i (·.append k v), count := t.count + 1 },
        ⟨.adding, i, c.length, k, v⟩)

/-- The value of `k`, if the table holds the key, with the event that traces the read. -/
def get (k : Key) (t : Table) : Except Fault (Option (Text × TraceEvent)) :=
  if t.freed then .error .freed else
  .ok ((t.find k).map fun (link, v) => (v, ⟨.getting, t.bucketOf k, link, k, v⟩))

/-- The keys, bucket by bucket, each bucket in chain order, written slot after slot into a buffer
with as many slots as the table counts entries. A key past the last slot cannot be written, and
the keys written must fill every slot. -/
def keys (t : Table) : Except Fault (List Key) :=
  if t.freed then .error .freed else
  let ks := t.entries.map (·.1)
  if t.count < ks.length then .error .keysOverrun
  else if ks.length < t.count then .error .countMismatch
  else .ok ks

/-- The number of entries, as the table counts them. -/
def len (t : Table) : Except Fault Nat :=
  if t.freed then .error .freed else .ok t.count

/-- The bucket of `k`. The count outlives a release, so this answers on a released table too. -/
def bucketIndex (k : Key) (t : Table) : Nat := t.bucketOf k

/-- The length of the chain of bucket `index`. The index must read as a number at least `0` and
below the count, compared exactly; one that passes and is a float still cannot index the row. -/
def chainLength (index : Datum) (t : Table) : Except Fault Nat :=
  if t.freed then .error .freed else
  match index.numeric? with
  | none => .error (.indexUnordered index.typeName)
  | some x =>
    if x.geInt 0 && x.ltInt t.shape.toNat then
      match x with
      | .int n => .ok (t.chainAt n.toNat).length
      | .float _ => .error .indexFractional
    else .error (.indexOutOfRange index.display t.shape.display)

/-- Where a run of stores stopped: the table as it was left, the events of the stores that were
made, and the refusal that stopped the run, if one did. -/
structure Progress where
  table : Table
  events : List TraceEvent
  fault : Option Fault

/-- Store the entries in order, stopping at the first refusal; the stores before it stay. -/
def setAll (mem : Memory) : List (Key × Text) → Table → Progress
  | [], t => ⟨t, [], none⟩
  | (k, v) :: rest, t =>
    match t.set mem k v with
    | .error e => ⟨t, [], some e⟩
    | .ok (t', ev) =>
      let p := setAll mem rest t'
      { p with events := ev :: p.events }

/-- Store every entry of `src` into `t`, in the order of `src.entries`. A released source is
refused before anything is stored. -/
def addAll (mem : Memory) (src t : Table) : Progress :=
  if src.freed then ⟨t, [], some .freed⟩ else setAll mem src.entries t

/-- The chain of every kept bucket unlinked by the unlinking loop, in index order: for each, the
number of entries it released and each entry as it is left, its key and value blanked. -/
def unlinkAll (t : Table) : List (Nat × List (Chain.Detached Text Text)) :=
  t.buckets.kept.map fun b =>
    Unlinking.onChain (.empty, .empty) (b.2.map fun e => (e.1.text, e.2))

/-- Release the table. Every chain is unlinked and every bucket emptied, and the entries released
must be as many as the table counts: only then does the table drop its count to zero and take the
mark. A table that fails the check is left with its buckets emptied and its count and mark as
they were. A released table is refused before anything is touched. -/
def free (t : Table) : Except Fault Progress :=
  if t.freed then .error .freed else
  let released := (t.unlinkAll.map (·.1)).foldl (· + ·) 0
  let emptied := { t with buckets := .empty }
  if released = t.count then .ok ⟨{ emptied with count := 0, freed := true }, [], none⟩
  else .ok ⟨emptied, [], some .countMismatch⟩

end Table

end Chaining
