import Chaining.Proofs.Safety

/-!
# Chain lengths

The length of a chain is asked by bucket index, and an index that reads as an integer (a truth
value reads as `0` or `1`) is compared exactly with the bucket count: a live table refuses it as
out of range when it is negative or at least the count, so a negative index never wraps round to
the last buckets. In range, the answer is the number of listed keys whose bucket is that index,
since every key lies in the chain of its own bucket; over all buckets these answers add up to the
entry count.

* `flatMap_range_eq_single`: a walk over the indices below `c` that keeps one index's part.
* `WellFormed.filter_keys_bucket`: a bucket's keys, picked out of the key listing in order, are
  the keys of its chain.
* `WellFormed.sum_chain_lengths`: the chain lengths add up to the entry count.
* `chainLength_indexError_iff`: when the length of a chain at an index reading as an integer is
  refused as out of range.
* `step_keys_reply`, `step_len_reply`, `step_bucketIndex_reply`, `step_chainLength_reply`: what
  a session answers about a table it holds.
* `reachable_chain_lengths_count_keys`: what the chain lengths of a live table answer.
-/

namespace Chaining

/-- Walking the indices below `c` and keeping only the part of index `i < c` gives that part. -/
theorem flatMap_range_eq_single {α : Type} (f : Nat → List α) {i : Nat} :
    ∀ {c : Nat}, i < c → (List.range c).flatMap (fun j => if j = i then f j else []) = f i
  | 0, h => absurd h (Nat.not_lt_zero _)
  | c + 1, h => by
    rw [List.range_succ, List.flatMap_append, List.flatMap_singleton]
    rcases Nat.lt_succ_iff_lt_or_eq.1 h with h | rfl
    · rw [flatMap_range_eq_single f h, if_neg (Nat.ne_of_gt h), List.append_nil]
    · have hnil : (List.range i).flatMap (fun j => if j = i then f j else []) = [] :=
        List.flatMap_eq_nil_iff.2 fun j hj => if_neg (Nat.ne_of_lt (List.mem_range.1 hj))
      rw [hnil, if_pos rfl, List.nil_append]

namespace Table

variable {t : Table}

/-- The keys of bucket `i`, picked out of the key listing in order, are the keys of its chain:
the listing walks the chains in bucket order, and each chain holds keys of its own bucket only. -/
theorem WellFormed.filter_keys_bucket (h : t.WellFormed) {i : Nat} (hi : i < t.shape.toNat) :
    (t.entries.map (·.1)).filter (fun k => t.bucketIndex k == i) = (t.chainAt i).map (·.1) := by
  have hpick : ∀ j, ((t.chainAt j).map (·.1)).filter (fun k => t.bucketIndex k == i) =
      if j = i then (t.chainAt j).map (·.1) else [] := by
    intro j
    split
    · exact List.filter_eq_self.2 fun k hk => by
        obtain ⟨e, he, rfl⟩ := List.mem_map.1 hk
        simp [bucketIndex, h.placed j e he, *]
    · exact List.filter_eq_nil_iff.2 fun k hk => by
        obtain ⟨e, he, rfl⟩ := List.mem_map.1 hk
        simp [bucketIndex, h.placed j e he, *]
  rw [h.entries_eq, List.map_flatMap, List.filter_flatMap]
  simp only [hpick]
  exact flatMap_range_eq_single (fun j => (t.chainAt j).map (·.1)) hi

theorem WellFormed.length_entries (h : t.WellFormed) : t.entries.length = t.count := by
  rw [← size, h.counted]

/-- The chain lengths add up, over the buckets, to the entry count. -/
theorem WellFormed.sum_chain_lengths (h : t.WellFormed) :
    ((List.range t.shape.toNat).map fun i => (t.chainAt i).length).sum = t.count := by
  rw [← h.length_entries, h.entries_eq, List.length_flatMap]

/-- A live table refuses an index reading as the integer `n` as out of range exactly when `n` is
negative or at least the bucket count. -/
theorem chainLength_indexError_iff (hl : t.freed = false) {index : Datum} {n : Int}
    (h : index.numeric? = some (.int n)) :
    (∃ e, t.chainLength index = .error e ∧ e.kind = "IndexError") ↔
      ¬ (0 ≤ n ∧ n < t.shape.toNat) := by
  rw [chainLength_of_numeric_int h, if_neg (by simp [hl])]
  by_cases hr : 0 ≤ n ∧ n < t.shape.toNat
  · simp [hr]
  · simp [hr, Fault.kind]

end Table

namespace Session

variable {s : Session} {name : Text} {t : Table}

/-- A live table the session holds lists the keys of its entries, in order. -/
theorem step_keys_reply (hwf : t.WellFormed) (ht : s.table? name = some t)
    (hl : t.freed = false) :
    (s.step ⟨some name, .table .keys⟩).2.reply = .ok (.keys (t.entries.map (·.1))) := by
  rw [(step_on_table ht fun _ h => by cases h).1]
  simp [command, hwf.keys_eq hl, Outcome.answer, Except.map]

/-- A live table the session holds answers its count as its number of entries. -/
theorem step_len_reply (ht : s.table? name = some t) (hl : t.freed = false) :
    (s.step ⟨some name, .table .len⟩).2.reply = .ok (.number t.count) := by
  rw [(step_on_table ht fun _ h => by cases h).1]
  simp [command, Table.len, hl, Outcome.answer, Except.map]

/-- The session reports the bucket of a key of a table it holds, released or not. -/
theorem step_bucketIndex_reply (ht : s.table? name = some t) (k : Key) :
    (s.step ⟨some name, .table (.bucketIndex (.str k.text))⟩).2.reply =
      .ok (.number (t.bucketIndex k)) := by
  rw [(step_on_table ht fun _ h => by cases h).1]
  simp [command, Key.check_text, Outcome.answer, Except.map]

/-- The session reports the chain lengths of a table it holds as the table answers them. -/
theorem step_chainLength_reply (ht : s.table? name = some t) (index : Datum) :
    (s.step ⟨some name, .table (.chainLength index)⟩).2.reply =
      (t.chainLength index).map .number :=
  (step_on_table ht fun _ h => by cases h).1

end Session

/-- What the chain lengths of the table `t`, held under `name` with key listing `ks`, answer. An
index reading as an integer `n` (a truth value reads as `0` or `1`) is refused with an index error
exactly when `n` is negative or at least the bucket count, and then with the out-of-range refusal
naming the index and the count; in range the answer is the number of listed keys whose bucket is
`n`, as the session reports each key's bucket. Over the buckets these numbers add up to the
length of the listing, which is the entry count the session reports. -/
structure Session.ChainsCountKeys (s : Session) (name : Text) (t : Table) (ks : List Key) :
    Prop where
  keys : (s.step ⟨some name, .table .keys⟩).2.reply = .ok (.keys ks)
  len : (s.step ⟨some name, .table .len⟩).2.reply = .ok (.number ks.length)
  bucket : ∀ k ∈ ks, (s.step ⟨some name, .table (.bucketIndex (.str k.text))⟩).2.reply =
    .ok (.number (t.bucketIndex k))
  refused_iff : ∀ index (n : Int), index.numeric? = some (.int n) →
    ((∃ e, (s.step ⟨some name, .table (.chainLength index)⟩).2.reply = .error e ∧
      e.kind = "IndexError") ↔ ¬ (0 ≤ n ∧ n < t.shape.toNat))
  out_of_range : ∀ index (n : Int), index.numeric? = some (.int n) → ¬ (0 ≤ n ∧ n < t.shape.toNat) →
    (s.step ⟨some name, .table (.chainLength index)⟩).2.reply =
      .error (.indexOutOfRange index.display t.shape.display)
  counts : ∀ index (n : Int), index.numeric? = some (.int n) → 0 ≤ n → n < t.shape.toNat →
    (s.step ⟨some name, .table (.chainLength index)⟩).2.reply =
      .ok (.number (ks.filter fun k => t.bucketIndex k == n.toNat).length)
  sum : ((List.range t.shape.toNat).map
    fun i => (ks.filter fun k => t.bucketIndex k == i).length).sum = ks.length

open Session in
/-- **Chain lengths count the keys of each bucket.** Every live table in a session a run reaches
answers its chain lengths as `ChainsCountKeys` says, for its own key listing. -/
theorem reachable_chain_lengths_count_keys {s : Session} (hs : s.Reachable) {name : Text}
    {t : Table} (ht : s.table? name = some t) (hl : t.freed = false) :
    ∃ ks, s.ChainsCountKeys name t ks := by
  have hwf : t.WellFormed := hs.wellFormed name t ht
  have hcount : ∀ i < t.shape.toNat,
      ((t.entries.map (·.1)).filter fun k => t.bucketIndex k == i).length = (t.chainAt i).length :=
    fun i hi => by rw [hwf.filter_keys_bucket hi, List.length_map]
  have hlen : (t.entries.map (·.1)).length = t.count := by
    rw [List.length_map, hwf.length_entries]
  refine ⟨t.entries.map (·.1), step_keys_reply hwf ht hl, by rw [step_len_reply ht hl, hlen],
    fun k _ => step_bucketIndex_reply ht k, fun index n hn => ?_, fun index n hn hr => ?_,
    fun index n hn h0 hc => ?_, ?_⟩
  · rw [step_chainLength_reply ht, ← Table.chainLength_indexError_iff hl hn]
    cases t.chainLength index <;> simp [Except.map]
  · rw [step_chainLength_reply ht, Table.chainLength_of_numeric_int hn, if_neg (by simp [hl]),
      if_neg hr]
    rfl
  · have hn' : n.toNat < t.shape.toNat := by omega
    rw [step_chainLength_reply ht, Table.chainLength_of_numeric_int hn, if_neg (by simp [hl]),
      if_pos ⟨h0, hc⟩, hcount _ hn']
    rfl
  · calc ((List.range t.shape.toNat).map
          fun i => ((t.entries.map (·.1)).filter fun k => t.bucketIndex k == i).length).sum
        = ((List.range t.shape.toNat).map fun i => (t.chainAt i).length).sum := by
          rw [List.map_congr_left fun i hi => hcount i (List.mem_range.1 hi)]
      _ = (t.entries.map (·.1)).length := by rw [hwf.sum_chain_lengths, hlen]

/-- A session holding a table "t" of three buckets that holds "1" under "a" and "2" under "b". -/
def Session.threeBuckets : Session :=
  Session.start.advance
    [⟨some (.ofString "t"), .table (.create (some (.int 3)))⟩,
      ⟨some (.ofString "t"), .table (.set (.str (.ofString "a")) (.str (.ofString "1")))⟩,
      ⟨some (.ofString "t"), .table (.set (.str (.ofString "b")) (.str (.ofString "2")))⟩]

/-- The table of three buckets with two keys counts its keys by bucket. -/
theorem three_buckets_chains_count_keys :
    Session.threeBuckets.Reachable ∧
      ∃ t, Session.threeBuckets.table? (.ofString "t") = some t ∧ t.freed = false ∧
        ∃ ks, Session.threeBuckets.ChainsCountKeys (.ofString "t") t ks :=
  ⟨Session.Reachable.start.advance _, _, rfl, rfl,
    reachable_chain_lengths_count_keys (Session.Reachable.start.advance _) rfl rfl⟩

end Chaining
