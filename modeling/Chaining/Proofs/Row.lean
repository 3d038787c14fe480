import Chaining.Table.Row

/-!
# Rows in index order

A row keeps only the buckets that were given a chain and reads every other bucket as empty. For
the walk over its kept buckets to be the walk over all `n` buckets of a table, one bucket after
another from bucket `0`, the kept buckets must stand in increasing index order and below `n`.
That is `Row.Ordered`, and giving a bucket below `n` a new chain keeps it.

* `Row.Ordered`: the kept buckets increase by index and stay below the bucket count.
* `Ordered.set`: giving a bucket below the count a chain keeps the order.
* `Ordered.get_eq_nil`: a row has nothing at or past the bucket count.
* `Ordered.modify_eq_self`: giving a bucket that holds a chain the chain it holds changes nothing.
* `Ordered.entries_eq`: the entries of the row are those of its `n` buckets, in index order.
* `get_modify`: changing one bucket changes no other.
-/

namespace Chaining

namespace Row

variable {κ ν : Type}

/-- The kept buckets of a row of `n` buckets stand in increasing index order, each below `n`. -/
structure Ordered (n : Nat) (r : Row κ ν) : Prop where
  increasing : r.kept.Pairwise fun p q => p.1 < q.1
  bounded : ∀ p ∈ r.kept, p.1 < n

theorem ordered_empty (n : Nat) : (empty : Row κ ν).Ordered n :=
  ⟨List.Pairwise.nil, by simp [empty]⟩

theorem get_modify (r : Row κ ν) (i j : Nat) (f : Chain κ ν → Chain κ ν) :
    (r.modify i f).get j = if j = i then f (r.get i) else r.get j :=
  get_set r i j _

theorem mem_place {i : Nat} {c : Chain κ ν} {l : List (Nat × Chain κ ν)} {p : Nat × Chain κ ν}
    (h : p ∈ place i c l) : p = (i, c) ∨ p ∈ l := by
  induction l with
  | nil => simpa [place] using h
  | cons q rest ih =>
    obtain ⟨j, d⟩ := q
    simp only [place] at h
    by_cases hji : j < i
    · rw [if_pos hji] at h
      rcases List.mem_cons.1 h with rfl | h
      · exact .inr List.mem_cons_self
      · exact (ih h).imp id (List.mem_cons_of_mem _)
    · rw [if_neg hji] at h
      by_cases hij : j = i
      · rw [if_pos hij] at h
        exact (List.mem_cons.1 h).imp id (List.mem_cons_of_mem _)
      · rw [if_neg hij] at h
        exact List.mem_cons.1 h

theorem pairwise_place (i : Nat) (c : Chain κ ν) {l : List (Nat × Chain κ ν)}
    (h : l.Pairwise fun p q => p.1 < q.1) : (place i c l).Pairwise fun p q => p.1 < q.1 := by
  induction l with
  | nil => simp [place]
  | cons q rest ih =>
    obtain ⟨j, d⟩ := q
    rw [List.pairwise_cons] at h
    obtain ⟨hj, hrest⟩ := h
    simp only [place]
    by_cases hji : j < i
    · rw [if_pos hji]
      refine List.pairwise_cons.2 ⟨fun p hp => ?_, ih hrest⟩
      rcases mem_place hp with rfl | hp
      · exact hji
      · exact hj p hp
    rw [if_neg hji]
    by_cases hij : j = i
    · rw [if_pos hij]
      subst hij
      exact List.pairwise_cons.2 ⟨hj, hrest⟩
    · -- the new bucket goes first, below `j` and so below every later index
      rw [if_neg hij]
      have hlt : i < j := by omega
      refine List.pairwise_cons.2 ⟨fun p hp => ?_, List.pairwise_cons.2 ⟨hj, hrest⟩⟩
      rcases List.mem_cons.1 hp with rfl | hp
      · exact hlt
      · exact Nat.lt_trans hlt (hj p hp)

theorem Ordered.set {n i : Nat} {r : Row κ ν} (h : r.Ordered n) (hi : i < n) (c : Chain κ ν) :
    (r.set i c).Ordered n where
  increasing := pairwise_place i c h.increasing
  bounded p hp := by
    rcases mem_place hp with rfl | hp
    · exact hi
    · exact h.bounded p hp

theorem Ordered.modify {n i : Nat} {r : Row κ ν} (h : r.Ordered n) (hi : i < n)
    (f : Chain κ ν → Chain κ ν) : (r.modify i f).Ordered n :=
  h.set hi _

theorem chainIn_eq_nil {i : Nat} {l : List (Nat × Chain κ ν)} (h : ∀ p ∈ l, p.1 ≠ i) :
    chainIn i l = [] := by
  induction l with
  | nil => rfl
  | cons p rest ih =>
    obtain ⟨j, d⟩ := p
    simp only [chainIn, if_neg (h (j, d) List.mem_cons_self)]
    exact ih fun q hq => h q (List.mem_cons_of_mem _ hq)

theorem Ordered.get_eq_nil {n i : Nat} {r : Row κ ν} (h : r.Ordered n) (hi : n ≤ i) :
    r.get i = [] :=
  chainIn_eq_nil fun p hp => by have := h.bounded p hp; omega

theorem place_chainIn_self {i : Nat} : ∀ {l : List (Nat × Chain κ ν)},
    (l.Pairwise fun p q => p.1 < q.1) → chainIn i l ≠ [] → place i (chainIn i l) l = l
  | [], _, h => absurd rfl h
  | (j, d) :: rest, hs, h => by
    rw [List.pairwise_cons] at hs
    by_cases hji : j < i
    · simp only [chainIn, if_neg (Nat.ne_of_lt hji)] at h ⊢
      simp only [place, if_pos hji, place_chainIn_self hs.2 h]
    · by_cases hij : j = i
      · subst hij
        simp [place, chainIn]
      · -- every kept bucket from `j` on lies past `i`, so bucket `i` is empty
        simp only [chainIn, if_neg hij] at h
        exact absurd (chainIn_eq_nil fun p hp => by have := hs.1 p hp; omega) h

/-- Changing a bucket that holds a chain into the chain it holds leaves the row as it is. -/
theorem Ordered.modify_eq_self {n i : Nat} {r : Row κ ν} (h : r.Ordered n)
    {f : Chain κ ν → Chain κ ν} (hf : f (r.get i) = r.get i) (hne : r.get i ≠ []) :
    r.modify i f = r := by
  show (⟨place i (f (r.get i)) r.kept⟩ : Row κ ν) = r
  rw [hf]
  exact congrArg Row.mk (place_chainIn_self h.increasing hne)

/-- Kept buckets in increasing order, from `lo` on and below `n`, hold the entries of buckets
`lo` to `n - 1`, one bucket after another. -/
theorem flatMap_eq_range' {n : Nat} : ∀ {lo : Nat} {l : List (Nat × Chain κ ν)},
    (l.Pairwise fun p q => p.1 < q.1) → (∀ p ∈ l, lo ≤ p.1 ∧ p.1 < n) →
    l.flatMap (·.2) = (List.range' lo (n - lo)).flatMap (chainIn · l)
  | lo, [], _, _ => by simp [chainIn]
  | lo, (i, c) :: rest, hs, hb => by
    rw [List.pairwise_cons] at hs
    obtain ⟨hlo, hn⟩ := hb (i, c) List.mem_cons_self
    -- the buckets from `lo` split at `i`: those below it are empty, those above it are `rest`'s
    have hsplit : List.range' lo (n - lo) =
        List.range' lo (i - lo) ++ i :: List.range' (i + 1) (n - (i + 1)) := by
      have hlen : n - lo = (i - lo) + (n - (i + 1) + 1) := by omega
      have hstart : lo + (i - lo) = i := by omega
      rw [hlen, ← List.range'_append_1, hstart, List.range'_succ]
    have hlow : (List.range' lo (i - lo)).flatMap (chainIn · ((i, c) :: rest)) = [] := by
      refine List.flatMap_eq_nil_iff.2 fun j hj => chainIn_eq_nil fun p hp => ?_
      rw [List.mem_range'_1] at hj
      rcases List.mem_cons.1 hp with rfl | hp
      · simp only; omega
      · have := hs.1 p hp; omega
    have hhigh : (List.range' (i + 1) (n - (i + 1))).flatMap (chainIn · ((i, c) :: rest)) =
        rest.flatMap (·.2) := by
      rw [flatMap_eq_range' hs.2 fun p hp => ⟨hs.1 p hp, (hb p (List.mem_cons_of_mem _ hp)).2⟩,
        List.flatMap_def, List.flatMap_def]
      congr 1
      refine List.map_congr_left fun j hj => ?_
      rw [List.mem_range'_1] at hj
      simp only [chainIn, if_neg (show i ≠ j by omega)]
    rw [hsplit, List.flatMap_append, hlow, List.nil_append, List.flatMap_cons, List.flatMap_cons,
      hhigh]
    simp [chainIn]

/-- The kept buckets of an ordered row hold the entries of its `n` buckets, one bucket after
another from bucket `0`: walking the row is walking the whole list of buckets. -/
theorem Ordered.entries_eq {n : Nat} {r : Row κ ν} (h : r.Ordered n) :
    r.entries = (List.range n).flatMap r.get := by
  rw [List.range_eq_range', entries,
    flatMap_eq_range' h.increasing fun p hp => ⟨Nat.zero_le _, h.bounded p hp⟩, Nat.sub_zero]
  rfl

theorem flatten_toList (r : Row κ ν) (n : Nat) :
    (r.toList n).flatten = (List.range n).flatMap r.get := by
  rw [toList, List.flatMap_def]

end Row

end Chaining
