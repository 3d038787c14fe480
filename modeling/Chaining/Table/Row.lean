import Chaining.Chain

/-!
# Rows of buckets

A table's buckets form a row of chains, one for each index below the bucket count. The count can
be far larger than the number of entries, and most buckets are then empty. So a row keeps only the
buckets that were given a chain, each with its index, in increasing index order; every other
bucket is empty. A row costs as much as its entries, whatever the number of buckets.

* `Row`: the kept buckets.
* `Row.get`: the chain of a bucket, empty unless the bucket is kept.
* `Row.set`, `Row.modify`: give one bucket a new chain, keeping the index order.
* `Row.entries`: every entry, bucket by bucket in index order.
* `Row.occupied`: the buckets that hold entries.
* `Row.toList`: the first `n` buckets as a plain list of chains.

## Results

* `get_empty`: every bucket of the empty row is empty.
* `get_set`: setting a bucket changes that bucket and no other.
* `length_toList`: the plain list of `n` buckets has `n` chains.
-/

namespace Chaining

/-- A row of buckets: the buckets that were given a chain, each with its index, in increasing
index order. A bucket that is not kept is empty. -/
structure Row (κ ν : Type) where
  kept : List (Nat × Chain κ ν)

namespace Row

variable {κ ν : Type}

/-- The row with every bucket empty. -/
def empty : Row κ ν := ⟨[]⟩

/-- The chain of bucket `i` among the kept buckets: that of the first with the index, or empty. -/
def chainIn (i : Nat) : List (Nat × Chain κ ν) → Chain κ ν
  | [] => []
  | (j, c) :: rest => if j = i then c else chainIn i rest

/-- The chain of bucket `i`. -/
def get (r : Row κ ν) (i : Nat) : Chain κ ν := chainIn i r.kept

/-- The kept buckets with bucket `i` given the chain `c`: the chain replaces that of the bucket if
it is kept, and is kept before the first larger index otherwise. -/
def place (i : Nat) (c : Chain κ ν) : List (Nat × Chain κ ν) → List (Nat × Chain κ ν)
  | [] => [(i, c)]
  | (j, d) :: rest =>
    if j < i then (j, d) :: place i c rest
    else if j = i then (i, c) :: rest
    else (i, c) :: (j, d) :: rest

/-- The row with bucket `i` given the chain `c`. -/
def set (r : Row κ ν) (i : Nat) (c : Chain κ ν) : Row κ ν := ⟨place i c r.kept⟩

/-- The row with the chain of bucket `i` changed by `f`. -/
def modify (r : Row κ ν) (i : Nat) (f : Chain κ ν → Chain κ ν) : Row κ ν := r.set i (f (r.get i))

/-- Every entry, bucket by bucket in index order, each bucket from the head of its chain. -/
def entries (r : Row κ ν) : List (κ × ν) := r.kept.flatMap (·.2)

/-- The buckets that hold entries, each with its index, in index order. -/
def occupied (r : Row κ ν) : List (Nat × Chain κ ν) := r.kept.filter fun p => !p.2.isEmpty

/-- The first `n` buckets, by index, as a plain list of chains. -/
def toList (r : Row κ ν) (n : Nat) : List (Chain κ ν) := (List.range n).map r.get

theorem get_empty (i : Nat) : (empty : Row κ ν).get i = [] := rfl

theorem chainIn_place (i j : Nat) (c : Chain κ ν) (l : List (Nat × Chain κ ν)) :
    chainIn j (place i c l) = if j = i then c else chainIn j l := by
  induction l with
  | nil =>
    by_cases h : j = i
    · simp [place, chainIn, h]
    · simp [place, chainIn, h, Ne.symm h]
  | cons p rest ih =>
    obtain ⟨k, d⟩ := p
    by_cases hk : k < i
    · simp only [place, hk, if_true, chainIn, ih]
      by_cases hj : j = i
      · simp [hj, Nat.ne_of_lt hk]
      · simp [hj]
    · by_cases hki : k = i
      · subst hki
        by_cases hj : j = k
        · simp [place, chainIn, hj]
        · simp [place, chainIn, hj, Ne.symm hj]
      · by_cases hj : j = i
        · simp [place, chainIn, hk, hki, hj]
        · simp [place, chainIn, hk, hki, hj, Ne.symm hj]

theorem get_set (r : Row κ ν) (i j : Nat) (c : Chain κ ν) :
    (r.set i c).get j = if j = i then c else r.get j :=
  chainIn_place i j c r.kept

theorem length_toList (r : Row κ ν) (n : Nat) : (r.toList n).length = n := by
  simp [toList]

end Row

end Chaining
