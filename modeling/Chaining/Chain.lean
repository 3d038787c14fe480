/-!
# Chains

A bucket holds its entries as a singly linked chain. A chain is seen here as the list of its
entries from the head, each a key with its value; the links are the list's order, and the
*link* of an entry is its 0-based position.

* `Chain.locate`: the first entry whose key equals the one asked for, with its link.
* `Chain.linkOf`: where a search for a key ends: the matching link, or the length on a miss.
* `Chain.tail?`: the last entry.
* `Chain.append`: a new entry linked after the tail.
* `Chain.overwrite`: a new value for the entry at a link.
* `Chain.unlink`: every link cut and every entry blanked.

## Results

* `locate_isSome_iff`: a search hits exactly when some entry has an equal key.
* `linkOf_le_length`: a search never ends past the end of the chain.
* `length_append`, `length_overwrite`: appending adds one entry, overwriting none.
-/

namespace Chaining

/-- A chain: its entries from the head, each a key with its value. -/
abbrev Chain (κ ν : Type) := List (κ × ν)

namespace Chain

variable {κ ν : Type}

section Search

variable [BEq κ]

/-- The first entry whose key equals `k` (the stored key on the left of the comparison): its
link and its value. -/
def locate (k : κ) : Chain κ ν → Option (Nat × ν)
  | [] => none
  | (j, v) :: rest => if j == k then some (0, v) else (locate k rest).map fun (i, w) => (i + 1, w)

/-- Where a search for `k` ends: the link of the first entry with an equal key, or the length
of the chain when none has one. -/
def linkOf (k : κ) (c : Chain κ ν) : Nat :=
  match locate k c with
  | some (i, _) => i
  | none => c.length

theorem locate_isSome_iff (k : κ) (c : Chain κ ν) :
    (locate k c).isSome ↔ ∃ e ∈ c, (e.1 == k) = true := by
  induction c with
  | nil => simp [locate]
  | cons e rest ih =>
    obtain ⟨j, v⟩ := e
    by_cases h : (j == k) = true
    · simp only [locate, h, if_true, Option.isSome_some, true_iff]
      exact ⟨(j, v), List.mem_cons_self, h⟩
    · simp only [locate, h, Bool.false_eq_true, if_false, Option.isSome_map, ih,
        List.mem_cons, exists_eq_or_imp]
      simp

theorem locate_link_lt (k : κ) (c : Chain κ ν) {i : Nat} {v : ν}
    (h : locate k c = some (i, v)) : i < c.length := by
  induction c generalizing i v with
  | nil => simp [locate] at h
  | cons e rest ih =>
    obtain ⟨j, w⟩ := e
    simp only [locate] at h
    split at h
    · simp only [Option.some.injEq, Prod.mk.injEq] at h
      simp [← h.1]
    · simp only [Option.map_eq_some_iff, Prod.exists, Prod.mk.injEq] at h
      obtain ⟨i', w', h', rfl, rfl⟩ := h
      simpa using ih h'

theorem linkOf_le_length (k : κ) (c : Chain κ ν) : linkOf k c ≤ c.length := by
  unfold linkOf
  split
  · rename_i i v h; exact Nat.le_of_lt (locate_link_lt k c h)
  · exact Nat.le_refl _

end Search

/-- The last entry of the chain, if it has one. -/
def tail? (c : Chain κ ν) : Option (κ × ν) := c.getLast?

/-- The chain with a new entry linked after its tail. -/
def append (c : Chain κ ν) (k : κ) (v : ν) : Chain κ ν := c ++ [(k, v)]

/-- The chain with the value of the entry at link `i` replaced by `v`. -/
def overwrite (c : Chain κ ν) (i : Nat) (v : ν) : Chain κ ν :=
  c.modify i fun e => (e.1, v)

theorem length_append (c : Chain κ ν) (k : κ) (v : ν) : (c.append k v).length = c.length + 1 := by
  simp [append]

theorem length_overwrite (c : Chain κ ν) (i : Nat) (v : ν) :
    (c.overwrite i v).length = c.length := by
  simp [overwrite]

/-- An entry cut loose from its chain: the key and value left in it, and whether it now links to
nothing. -/
structure Detached (κ ν : Type) where
  key : κ
  value : ν
  alone : Bool

/-- Cut every link of the chain, walking from the head with the successor saved before each
entry is blanked: the number of entries released, and each entry as it is left, with the blank
key and value and no successor. -/
def unlink (blank : κ × ν) (c : Chain κ ν) : Nat × List (Detached κ ν) :=
  (c.length, c.map fun _ => ⟨blank.1, blank.2, true⟩)

theorem unlink_count (blank : κ × ν) (c : Chain κ ν) : (unlink blank c).1 = c.length := rfl

end Chain

end Chaining
