import Chaining.Proofs.Invariant
import Chaining.Proofs.Copy

/-!
# The order of the keys

A table lists its keys bucket by bucket from bucket `0`, each bucket in chain order. A new key is
linked after the tail of its bucket's chain, and an overwrite moves nothing, so each chain holds
its keys in the order they were added. The listing is therefore the keys in the order they were
added, regrouped by bucket and kept in that order within a bucket; with one bucket it is exactly
the order of addition.

* `TraceEvent.newKeys`: the keys of the events that report a new entry.
* `Session.additions`, `Session.additionsAlong`: the keys a step, and a run, add to a table.
* `Table.Records`: the chains hold the added keys, each bucket its own in order of addition, and
  the count is their number.
* `Records.set`, `Records.setAll`, `records_command`, `records_step`, `records_advance`: a
  store, a run of stores, a command, a step and a run keep it.
* `keys_in_bucket_then_insertion_order`: the key listing of a live table after any run.
-/

namespace Chaining

/-- The keys of the events that report a new entry, in order. -/
def TraceEvent.newKeys (evs : List TraceEvent) : List Key :=
  (evs.filter (·.action == .adding)).map (·.key)

@[simp] theorem TraceEvent.newKeys_nil : newKeys [] = [] := rfl

theorem TraceEvent.newKeys_cons (ev : TraceEvent) (evs : List TraceEvent) :
    newKeys (ev :: evs) = newKeys [ev] ++ newKeys evs := by
  by_cases h : ev.action = .adding <;> simp [newKeys, h]

/-! ## Grouping a list by a number is sorting it stably -/

section Grouping

variable {α : Type} (f : α → Nat)

theorem decide_le_trans (a b c : α) (h₁ : decide (f a ≤ f b) = true)
    (h₂ : decide (f b ≤ f c) = true) : decide (f a ≤ f c) = true := by
  simp only [decide_eq_true_eq] at h₁ h₂ ⊢
  omega

theorem decide_le_total (a b : α) : (decide (f a ≤ f b) || decide (f b ≤ f a)) = true := by
  simp only [Bool.or_eq_true, decide_eq_true_eq]
  omega

/-- A list sorted by `f`, with every value of `f` at most `n`, is its elements below `n`, then
those at `n`. -/
theorem sorted_eq_filter_lt_append_filter_eq (n : Nat) : ∀ {l : List α},
    l.Pairwise (fun a b => f a ≤ f b) → (∀ a ∈ l, f a ≤ n) →
      l = l.filter (fun a => f a < n) ++ l.filter (fun a => f a == n)
  | [], _, _ => rfl
  | a :: l, hs, hb => by
    rw [List.pairwise_cons] at hs
    by_cases ha : f a < n
    · have ih := sorted_eq_filter_lt_append_filter_eq n hs.2 fun b hb' => hb b (.tail _ hb')
      have hne : (f a == n) = false := by simpa using Nat.ne_of_lt ha
      simp only [List.filter_cons, decide_eq_true ha, if_true, hne, Bool.false_eq_true, if_false,
        List.cons_append]
      exact congrArg (a :: ·) ih
    · have hfa : f a = n := by have := hb a List.mem_cons_self; omega
      have hl : ∀ b ∈ l, f b = n := fun b hb' => by
        have := hs.1 b hb'
        have := hb b (.tail _ hb')
        omega
      have hlow : l.filter (fun b => f b < n) = [] :=
        List.filter_eq_nil_iff.2 fun b hb' => by simp [hl b hb']
      have htop : l.filter (fun b => f b == n) = l :=
        List.filter_eq_self.2 fun b hb' => by simp [hl b hb']
      simp [hfa, hlow, htop]

/-- A list sorted by `f`, with every value of `f` below `n`, is its classes laid out one after
another from the class of `0`. -/
theorem sorted_eq_flatMap_range_filter : ∀ (n : Nat) {l : List α},
    l.Pairwise (fun a b => f a ≤ f b) → (∀ a ∈ l, f a < n) →
      l = (List.range n).flatMap fun i => l.filter fun a => f a == i
  | 0, [], _, _ => rfl
  | 0, a :: _, _, hb => absurd (hb a List.mem_cons_self) (Nat.not_lt_zero _)
  | n + 1, l, hs, hb => by
    -- the classes below `n` are those of the elements below `n`, and the class of `n` comes last
    have hsub : (l.filter fun a => f a < n).Sublist l := List.filter_sublist
    have hlow := sorted_eq_flatMap_range_filter n (hs.sublist hsub)
      fun a ha => by simpa using (List.mem_filter.1 ha).2
    rw [List.range_succ, List.flatMap_append, List.flatMap_singleton]
    conv_lhs => rw [sorted_eq_filter_lt_append_filter_eq f n hs fun a ha =>
      Nat.lt_succ_iff.1 (hb a ha)]
    congr 1
    rw [hlow]
    refine List.flatMap_congr fun i hi => ?_
    rw [List.filter_filter]
    refine List.filter_congr fun a _ => ?_
    have := List.mem_range.1 hi
    by_cases h : f a = i
    · simp [h, this]
    · simp [h]

/-- Merge sort by `f` keeps each class in the order of the input. -/
theorem filter_mergeSort (l : List α) (i : Nat) :
    (l.mergeSort fun a b => f a ≤ f b).filter (fun a => f a == i) =
      l.filter fun a => f a == i := by
  -- the class is sorted, so it stays a sublist of the sorted list, and has its length there
  have hsorted : (l.filter fun a => f a == i).Pairwise fun a b => decide (f a ≤ f b) = true :=
    List.Pairwise.imp_of_mem (fun ha hb _ => by
      simp only [List.mem_filter, beq_iff_eq] at ha hb
      simp [ha.2, hb.2]) (List.pairwise_of_forall fun _ _ => trivial)
  have hsub := (List.sublist_mergeSort (decide_le_trans f) (decide_le_total f) hsorted
    List.filter_sublist).filter (fun a => f a == i)
  rw [List.filter_filter] at hsub
  simp only [Bool.and_self] at hsub
  exact (hsub.eq_of_length ((List.mergeSort_perm l _).filter _).length_eq.symm).symm

/-- Grouping by `f` in increasing order is the stable sort by `f`. -/
theorem flatMap_range_filter_eq_mergeSort {n : Nat} {l : List α} (hb : ∀ a ∈ l, f a < n) :
    ((List.range n).flatMap fun i => l.filter fun a => f a == i) =
      l.mergeSort fun a b => f a ≤ f b := by
  have hsorted := List.pairwise_mergeSort (decide_le_trans f) (decide_le_total f) l
  conv_rhs => rw [sorted_eq_flatMap_range_filter f n (hsorted.imp fun h => by simpa using h)
    fun a ha => hb a (List.mem_mergeSort.1 ha)]
  exact List.flatMap_congr fun i _ => (filter_mergeSort f l i).symm

end Grouping

namespace Session

/-- The keys a step adds to the table named `name`, in the order it adds them: those of the
stores it makes there that report a new entry, the stores of a copy included. A store step
answers true exactly when its store reports a new entry. -/
def additions (s : Session) (name : Text) (st : Step) : List Key :=
  match st.action, st.subject with
  | .table cmd, some n => if n = name then TraceEvent.newKeys (s.onTable n cmd).2.2 else []
  | _, _ => []

/-- The keys a run of steps adds to the table named `name`, in order. -/
def additionsAlong (s : Session) (name : Text) : List Step → List Key
  | [] => []
  | st :: rest => s.additions name st ++ (s.step st).1.additionsAlong name rest

end Session

namespace Table

/-- The chains of `t` hold the keys of `added`: the chain of each bucket holds, in order, the
keys of `added` whose bucket it is, and the count is the number of keys added. -/
structure Records (t : Table) (added : List Key) : Prop where
  chains : ∀ i, (t.chainAt i).map (·.1) = added.filter fun k => t.bucketIndex k == i
  count : t.count = added.length

variable {t : Table} {added : List Key}

theorem records_create (c : BucketCount) : (create c).Records [] :=
  ⟨fun i => by simp [create, chainAt, Row.get_empty], rfl⟩

/-- A store keeps the record, adding its key when it reports a new entry. -/
theorem Records.set (h : t.Records added) {mem : Memory} {k : Key} {v : Text} {t' : Table}
    {ev : TraceEvent} (hs : t.set mem k v = .ok (t', ev)) :
    t'.Records (added ++ TraceEvent.newKeys [ev]) := by
  have hchains := h.chains
  simp only [bucketIndex, bucketOf] at hchains
  obtain ⟨-, ⟨i, w, -, rfl, rfl⟩ | ⟨-, -, rfl, rfl⟩⟩ := set_eq_ok hs
  · refine ⟨fun j => ?_, by simpa [TraceEvent.newKeys] using h.count⟩
    rw [chainAt_modify t _ _ t.count j]
    split
    · subst j
      simpa [TraceEvent.newKeys, Chain.keys_overwrite, bucketIndex, bucketOf] using
        hchains (t.bucketOf k)
    · simpa [TraceEvent.newKeys, bucketIndex, bucketOf] using hchains j
  · refine ⟨fun j => ?_, by simp [TraceEvent.newKeys, h.count]⟩
    rw [chainAt_modify]
    split
    · subst j
      simp [TraceEvent.newKeys, Chain.keys_append, hchains, bucketIndex, bucketOf]
    · rename_i hj
      have hkj : (k.bucket t.shape.toNat == j) = false := by simpa [bucketOf] using Ne.symm hj
      simp [TraceEvent.newKeys, hchains, bucketIndex, bucketOf, hkj]

/-- A run of stores keeps the record, adding the keys its stores report new. -/
theorem Records.setAll {mem : Memory} :
    ∀ {es : List (Key × Text)} {t : Table} {added : List Key}, t.Records added →
      (Table.setAll mem es t).table.Records
        (added ++ TraceEvent.newKeys (Table.setAll mem es t).events)
  | [], _, _, h => by simpa [Table.setAll] using h
  | (k, v) :: rest, t, added, h => by
    cases hs : t.set mem k v with
    | error e => simpa [setAll_cons_error hs] using h
    | ok r =>
      obtain ⟨t', ev⟩ := r
      rw [setAll_cons_ok hs, TraceEvent.newKeys_cons, ← List.append_assoc]
      exact (h.set hs).setAll

end Table

namespace Session

variable {s : Session}

/-- A command keeps the record of the table it runs on, when the table it leaves is live, adding
the keys its stores report new. -/
theorem records_command {t : Table} (ht : t.WellFormed) {added : List Key}
    (hr : t.freed = false → t.Records added) (cmd : Command) :
    ((s.command t cmd).table.getD t).freed = false →
      ((s.command t cmd).table.getD t).Records
        (added ++ TraceEvent.newKeys (s.command t cmd).events) := by
  cases hc : (s.command t cmd).table with
  | none =>
    -- a command that leaves no table reports reads only, and those add nothing
    have hnone : TraceEvent.newKeys (s.command t cmd).events = [] := by
      simp only [TraceEvent.newKeys, List.map_eq_nil_iff, List.filter_eq_nil_iff]
      intro ev hev
      simp [command_events_of_table_none hc ev hev]
    rw [hnone, List.append_nil, Option.getD_none]
    exact hr
  | some t' =>
    rw [Option.getD_some]
    intro hl
    rcases command_table_eq_some hc with ⟨-, -, k, v, ev, -, hs, heq⟩ | ⟨-, src, -, -, heq⟩ |
      ⟨-, p, hp, heq⟩
    · rw [heq]
      exact (hr (Table.set_eq_ok hs).1).set hs
    · rw [heq] at hc ⊢
      simp only [Outcome.ofProgress, Option.some.injEq] at hc
      subst hc
      simp only [Outcome.ofProgress]
      cases hsrc : src.freed
      · rw [Table.addAll_of_live s.memory hsrc] at hl ⊢
        cases hf : t.freed
        · exact (hr hf).setAll
        · rw [Table.setAll_of_freed hf] at hl
          simp [hf] at hl
      · rw [Table.addAll_of_freed s.memory hsrc] at hl ⊢
        simpa using hr hl
    · rw [heq] at hc
      simp only [Outcome.ofProgress, Option.some.injEq] at hc
      subst hc
      obtain ⟨hlive, -⟩ := Table.free_eq_ok hp
      rw [ht.free_eq hlive, Except.ok.injEq] at hp
      subst hp
      simp at hl

/-- A step that makes no new table under the name keeps the record of the table there, adding
the keys the step adds to it. -/
theorem records_step (hs : s.WellFormed) {name : Text} {t : Table} (ht : s.table? name = some t)
    {added : List Key} (hr : t.freed = false → t.Records added) (st : Step)
    (hn : ¬ st.Renews name) :
    ∃ t', (s.step st).1.table? name = some t' ∧
      (t'.freed = false → t'.Records (added ++ s.additions name st)) := by
  obtain ⟨subject, action⟩ := st
  cases action with
  | trace on => exact ⟨t, ht, by simpa [additions] using hr⟩
  | exhaust on => exact ⟨t, ht, by simpa [additions] using hr⟩
  | table cmd =>
    cases subject with
    | none => exact ⟨t, ht, by simpa [additions] using hr⟩
    | some n =>
      by_cases hnn : n = name
      · subst hnn
        by_cases hcreate : ∃ count, cmd = .create count
        · obtain ⟨count, rfl⟩ := hcreate
          cases hc : BucketCount.check count with
          | ok c => exact absurd ⟨count, c, rfl, hc⟩ hn
          | error e =>
            exact ⟨t, by simp [step_table, Session.onTable, hc, ht],
              by simpa [additions, Session.onTable, hc] using hr⟩
        · have hcmd : ∀ count, cmd ≠ .create count := fun count h => hcreate ⟨count, h⟩
          refine ⟨(s.command t cmd).table.getD t, ?_, ?_⟩
          · rw [(step_on_table ht hcmd).2 _, if_pos rfl]
          · simp only [additions, onTable_of_table? ht hcmd]
            exact records_command (hs n t ht) hr cmd
      · refine ⟨t, ?_, by simpa [additions, hnn] using hr⟩
        rw [step_table, table?_onTable_of_ne (Ne.symm hnn)]
        exact ht

theorem records_advance (hs : s.WellFormed) {name : Text} {t : Table}
    (ht : s.table? name = some t) {added : List Key} (hr : t.freed = false → t.Records added)
    {sts : List Step} (hsts : ∀ st ∈ sts, ¬ st.Renews name) :
    ∃ t', (s.advance sts).table? name = some t' ∧
      (t'.freed = false → t'.Records (added ++ s.additionsAlong name sts)) := by
  induction sts generalizing s t added with
  | nil => exact ⟨t, ht, by simpa [additionsAlong] using hr⟩
  | cons st rest ih =>
    obtain ⟨t₁, ht₁, hr₁⟩ := records_step hs ht hr st (hsts st List.mem_cons_self)
    obtain ⟨t', ht', hr'⟩ :=
      ih (hs.step st) ht₁ hr₁ fun st' h => hsts st' (List.mem_cons_of_mem _ h)
    refine ⟨t', ht', fun hl => ?_⟩
    rw [additionsAlong, ← List.append_assoc]
    exact hr' hl

end Session

open Session in
/-- **Keys in bucket order, then in order of addition.** Take a table just made with `c` buckets
in a session a run reaches, and any run that makes no new table under its name. If the table it
leaves is live, its key listing holds the keys the run added to it, those of bucket `0` first,
then those of bucket `1`, and so on, each bucket's keys in the order they were added; its length
is the number of keys added, which is the entry count; and with one bucket it is exactly the
order of addition. Overwrites, refused stores and every other step add no key and move none. -/
theorem keys_in_bucket_then_insertion_order {s : Session} (hs : s.Reachable) {name : Text}
    {c : BucketCount} (ht : s.table? name = some (Table.create c)) {sts : List Step}
    (hsts : ∀ st ∈ sts, ¬ st.Renews name) :
    ∃ t, (s.advance sts).table? name = some t ∧ t.shape = c ∧
      (t.freed = false → ∃ ks,
        ((s.advance sts).step ⟨some name, .table .keys⟩).2.reply = .ok (.keys ks) ∧
        ks = (List.range c.toNat).flatMap
          (fun i => (s.additionsAlong name sts).filter fun k => t.bucketIndex k == i) ∧
        ks = (s.additionsAlong name sts).mergeSort
          (fun k k' => t.bucketIndex k ≤ t.bucketIndex k') ∧
        ((s.advance sts).step ⟨some name, .table .len⟩).2.reply = .ok (.number ks.length) ∧
        ks.length = (s.additionsAlong name sts).length ∧
        (c.toNat = 1 → ks = s.additionsAlong name sts)) := by
  obtain ⟨t, ht', hb⟩ := advance_becomes ht hsts
  obtain ⟨t₁, ht₁, hr⟩ := records_advance hs.wellFormed ht (fun _ => Table.records_create c) hsts
  rw [ht', Option.some.injEq] at ht₁
  subst ht₁
  have hwf : t.WellFormed := (hs.advance sts).wellFormed name t ht'
  have hshape : t.shape = c := hb.shape
  refine ⟨t, ht', hshape, fun hl => ?_⟩
  have hrec := hr hl
  simp only [List.nil_append] at hrec
  have hcmd : ∀ cmd, cmd = Command.keys ∨ cmd = .len → ∀ count, cmd ≠ .create count := by
    rintro cmd (rfl | rfl) count h <;> cases h
  -- the listing walks the chains bucket by bucket, and each chain holds its bucket's keys
  have hks : t.entries.map (·.1) = (List.range c.toNat).flatMap
      (fun i => (s.additionsAlong name sts).filter fun k => t.bucketIndex k == i) := by
    rw [hwf.entries_eq, List.map_flatMap, hshape]
    exact List.flatMap_congr fun i _ => hrec.chains i
  have hlen : (t.entries.map (·.1)).length = (s.additionsAlong name sts).length := by
    rw [List.length_map, ← hrec.count, hwf.counted, Table.size]
  have hsort : t.entries.map (·.1) = (s.additionsAlong name sts).mergeSort
      (fun k k' => t.bucketIndex k ≤ t.bucketIndex k') := by
    rw [hks, ← hshape]
    exact flatMap_range_filter_eq_mergeSort (fun k => t.bucketIndex k) fun k _ => t.bucketOf_lt k
  refine ⟨t.entries.map (·.1), ?_, hks, hsort, ?_, hlen, fun hone => ?_⟩
  · rw [(step_on_table ht' (hcmd _ (.inl rfl))).1]
    simp [command, hwf.keys_eq hl, Outcome.answer, Except.map]
  · rw [(step_on_table ht' (hcmd _ (.inr rfl))).1, hlen, ← hrec.count]
    simp [command, Table.len, hl, Outcome.answer, Except.map]
  · rw [hks, hone]
    simp only [List.range_one, List.flatMap_cons, List.flatMap_nil, List.append_nil]
    refine List.filter_eq_self.2 fun k _ => ?_
    have := t.bucketOf_lt k
    rw [hshape, hone] at this
    simp [Table.bucketIndex_eq_bucketOf]
    omega

/-- A session holding an empty table of two buckets under the name "t". -/
def Session.twoBuckets : Session :=
  (Session.start.step ⟨some (.ofString "t"), .table (.create (some (.int 2)))⟩).1

/-- Two stores into the table "t": "1" under "a", then "2" under "b". -/
def Step.twoStores : List Step :=
  [⟨some (.ofString "t"), .table (.set (.str (.ofString "a")) (.str (.ofString "1")))⟩,
    ⟨some (.ofString "t"), .table (.set (.str (.ofString "b")) (.str (.ofString "2")))⟩]

/-- Two stores into a table of two buckets, just made: its keys are listed bucket by bucket. -/
theorem two_stores_keys_in_bucket_order :
    Session.twoBuckets.Reachable ∧
      Session.twoBuckets.table? (.ofString "t") = some (Table.create (.count 2 (by decide))) ∧
      (∀ st ∈ Step.twoStores, ¬ st.Renews (.ofString "t")) ∧
      ∃ t, (Session.twoBuckets.advance Step.twoStores).table? (.ofString "t") = some t ∧
        t.shape = .count 2 (by decide) ∧
        (t.freed = false → ∃ ks,
          ((Session.twoBuckets.advance Step.twoStores).step
              ⟨some (.ofString "t"), .table .keys⟩).2.reply = .ok (.keys ks) ∧
          ks = (List.range 2).flatMap (fun i =>
            (Session.twoBuckets.additionsAlong (.ofString "t") Step.twoStores).filter
              fun k => t.bucketIndex k == i) ∧
          ks = (Session.twoBuckets.additionsAlong (.ofString "t") Step.twoStores).mergeSort
            (fun k k' => t.bucketIndex k ≤ t.bucketIndex k') ∧
          ((Session.twoBuckets.advance Step.twoStores).step
              ⟨some (.ofString "t"), .table .len⟩).2.reply = .ok (.number ks.length) ∧
          ks.length = (Session.twoBuckets.additionsAlong (.ofString "t") Step.twoStores).length ∧
          (2 = 1 → ks = Session.twoBuckets.additionsAlong (.ofString "t") Step.twoStores)) := by
  have hsts : ∀ st ∈ Step.twoStores, ¬ st.Renews (.ofString "t") := by
    intro st hst
    simp only [Step.twoStores, List.mem_cons, List.not_mem_nil, or_false] at hst
    rcases hst with rfl | rfl <;> simp [Step.Renews]
  exact ⟨.step _ .start, rfl, hsts, keys_in_bucket_then_insertion_order (.step _ .start) rfl hsts⟩

end Chaining
