import Chaining.Fault
import Chaining.Datum.Render

/-!
# Bucket counts

A table has a fixed number of buckets, chosen when it is made and never changed. The count is a
positive integer, or the truth value `True`, which a table accepts as the count one and keeps as
given: listings and messages then show `True`.

* `BucketCount`: the two forms of a count.
* `BucketCount.check`: the count a datum asks for, or why it asks for none, tested in the order a
  table tests it: below one, then the size of the bucket list, then its kind.
* `BucketCount.standard`: the count of a table made without one, `256`.
-/

namespace Chaining

/-- A bucket count as a table keeps it: a positive integer, or the truth value `True`, counting as one. -/
inductive BucketCount where
  | count (n : Nat) (pos : 0 < n)
  | truth
deriving DecidableEq

namespace BucketCount

/-- The number of buckets. -/
def toNat : BucketCount → Nat
  | count n _ => n
  | truth => 1

theorem toNat_pos (c : BucketCount) : 0 < c.toNat := by
  cases c with
  | count n h => exact h
  | truth => exact Nat.one_pos

/-- How the count is shown in listings and messages. -/
def display : BucketCount → Text
  | count n _ => .ofString (Numeral.int n)
  | truth => .ofString "True"

/-- The count of a table made without one. -/
def standard : BucketCount := count 256 (by decide)

/-- The first count whose bucket list cannot be allocated. Making the list tests no bound of its
own: it fails when the machine cannot give one 8-byte slot for each bucket, so where it fails
depends on the memory at hand. Here that is taken to be `2 ^ 32` slots (32 GiB), more than a
table is ever given; from `2 ^ 60` slots on, the size in bytes no longer even fits a machine
index, whatever the memory. No property of tables proved here depends on this bound. -/
def allocatable : Nat := Nat.pow 2 32

/-- The first count that no longer fits a signed 64-bit index. -/
def indexBound : Nat := Nat.pow 2 63

/-- The count a datum asks for. A number below one is refused with the number shown; a float that
is not below one cannot size a list; an integer past a machine index does not fit one; an integer
past the allocatable slots cannot be allocated; any other kind cannot be compared with one. -/
def check : Option Datum → Except Fault BucketCount
  | none => .ok standard
  | some (.bool true) => .ok truth
  | some (.bool false) => .error (.countBelowOne (.ofString "False"))
  | some (.int n) =>
    if h : n < 1 then .error (.countBelowOne (.ofString (Numeral.int n)))
    else if (indexBound : Int) ≤ n then .error .countTooWide
    else if (allocatable : Int) ≤ n then .error (.bucketsUnavailable n.toNat)
    else .ok (count n.toNat (by omega))
  | some (.float x) =>
    if (Binary64.ofFloat x).ltInt 1 then .error (.countBelowOne (Datum.float x).display)
    else .error .countFractional
  | some d => .error (.countUnordered d.typeName)

example : (check (some (.int 0))).toOption = none := by decide
example : (check (some (.int 8))).toOption.map toNat = some 8 := by decide

end BucketCount

end Chaining
