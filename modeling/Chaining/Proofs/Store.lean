import Chaining.Proofs.MapView

/-!
# What one store writes

A store writes the one bucket its key hashes to, and within it one place. An overwrite gives the
entry at the key's link its new value and leaves every other entry where it was; an append links
one new entry after the tail, at the link that was the chain's length. Every other bucket keeps
its chain entry for entry, and the table keeps its bucket count and its mark.

* `Chain.getElem?_of_locate`, `Chain.locate_of_mem`: a search finds the entry at the link it
  reports; in a chain with distinct keys it finds every entry there is.
* `Chain.overwrite_eq_set`, `Chain.overwrite_locate_self`: an overwrite replaces the entry at its
  link by the key with the new value, and changes nothing when the value is the one held.
* `Table.WritesOneBucket`: what a store of a key leaves, bucket by bucket.
* `WellFormed.writesOneBucket`: every store that goes through writes so.
* `WellFormed.set_of_mem`: storing an entry the table holds leaves the table exactly as it is.
* `store_writes_one_bucket`: a store step on a table of a reachable session.
-/

namespace Chaining

namespace Chain

variable {κ ν : Type}

theorem overwrite_eq_set {ch : Chain κ ν} {i : Nat} {k : κ} {w : ν} (h : ch[i]? = some (k, w))
    (v : ν) : ch.overwrite i v = ch.set i (k, v) := by
  induction ch generalizing i with
  | nil => simp at h
  | cons e rest ih =>
    cases i with
    | zero =>
      simp only [List.getElem?_cons_zero, Option.some.injEq] at h
      simp [overwrite, h]
    | succ i => simpa [overwrite] using ih (by simpa using h)

section Search

variable [BEq κ] [LawfulBEq κ]

theorem getElem?_of_locate {k : κ} {ch : Chain κ ν} {i : Nat} {w : ν}
    (h : locate k ch = some (i, w)) : ch[i]? = some (k, w) := by
  induction ch generalizing i w with
  | nil => simp [locate] at h
  | cons e rest ih =>
    obtain ⟨j, u⟩ := e
    by_cases hj : (j == k) = true
    · simp only [locate, hj, if_true, Option.some.injEq, Prod.mk.injEq] at h
      obtain ⟨rfl, rfl⟩ := h
      simp [show j = k by simpa using hj]
    · simp only [locate, hj, Bool.false_eq_true, if_false, Option.map_eq_some_iff, Prod.exists,
        Prod.mk.injEq] at h
      obtain ⟨i', w', h', rfl, rfl⟩ := h
      simpa using ih h'

/-- In a chain whose keys are distinct, a search for the key of an entry finds that entry. -/
theorem locate_of_mem {k : κ} {v : ν} {c : Chain κ ν} (hd : (c.map (·.1)).Nodup)
    (h : (k, v) ∈ c) : ∃ i, locate k c = some (i, v) := by
  induction c with
  | nil => simp at h
  | cons e rest ih =>
    obtain ⟨j, u⟩ := e
    rw [List.map_cons, List.nodup_cons] at hd
    by_cases hj : (j == k) = true
    · have hjk : j = k := by simpa using hj
      subst hjk
      rcases List.mem_cons.1 h with he | he
      · exact ⟨0, by simp [locate, (Prod.mk.inj he).2]⟩
      · exact absurd (List.mem_map.2 ⟨_, he, rfl⟩) hd.1
    · have he : (k, v) ∈ rest := by
        rcases List.mem_cons.1 h with he | he
        · exact absurd (by rw [(Prod.mk.inj he).1]; exact beq_self_eq_true j) hj
        · exact he
      obtain ⟨i, hi⟩ := ih hd.2 he
      exact ⟨i + 1, by simp [locate, hj, hi]⟩

/-- Overwriting the entry a search found with the value it holds changes nothing. -/
theorem overwrite_locate_self {k : κ} {c : Chain κ ν} {i : Nat} {w : ν}
    (h : locate k c = some (i, w)) : c.overwrite i w = c := by
  have hi := getElem?_of_locate h
  obtain ⟨hlt, hget⟩ := List.getElem?_eq_some_iff.1 hi
  rw [overwrite_eq_set hi, ← hget, List.set_getElem_self]

end Search

end Chain

namespace Table

/-- What a store of `v` under `k` into `t` leaves in `t'`, bucket by bucket. The bucket count
and the mark are kept. Every bucket but the key's holds the chain it held. If the key stood at
link `l` of its bucket, the chain has the key with its new value at `l` and is otherwise as it
was, and the count is kept; if the key was not there, the chain has one entry more, the key with
its value after the old tail, and the count goes up by one. -/
structure WritesOneBucket (t : Table) (k : Key) (v : Text) (t' : Table) : Prop where
  shape : t'.shape = t.shape
  freed : t'.freed = t.freed
  others : ∀ i, i ≠ t.bucketIndex k → t'.chainAt i = t.chainAt i
  overwrite : ∀ l, ((t.chainAt (t.bucketIndex k)).map (·.1))[l]? = some k →
    t'.chainAt (t.bucketIndex k) = (t.chainAt (t.bucketIndex k)).set l (k, v) ∧
      t'.count = t.count
  append : k ∉ (t.chainAt (t.bucketIndex k)).map (·.1) →
    t'.chainAt (t.bucketIndex k) = t.chainAt (t.bucketIndex k) ++ [(k, v)] ∧
      t'.count = t.count + 1

variable {t : Table}

theorem bucketIndex_eq_bucketOf (t : Table) (k : Key) : t.bucketIndex k = t.bucketOf k := rfl

theorem chainAt_modify (t : Table) (b : Nat) (f : Chain Key Text → Chain Key Text) (c i : Nat) :
    ({ t with buckets := t.buckets.modify b f, count := c }).chainAt i =
      if i = b then f (t.chainAt b) else t.chainAt i :=
  Row.get_modify t.buckets b i f

theorem chainAt_modify_of_ne (t : Table) {b i : Nat} (f : Chain Key Text → Chain Key Text)
    (c : Nat) (h : i ≠ b) :
    ({ t with buckets := t.buckets.modify b f, count := c }).chainAt i = t.chainAt i := by
  rw [chainAt_modify, if_neg h]

/-- Every store that goes through writes one bucket, as `WritesOneBucket` says. -/
theorem WellFormed.writesOneBucket (h : t.WellFormed) {mem : Memory} {k : Key} {v : Text}
    {t' : Table} {ev : TraceEvent} (hs : t.set mem k v = .ok (t', ev)) :
    t.WritesOneBucket k v t' := by
  have hd := h.distinct (t.bucketOf k)
  obtain ⟨-, ⟨i, w, hf, rfl, -⟩ | ⟨hf, -, rfl, -⟩⟩ := set_eq_ok hs
  · have hi := Chain.getElem?_of_locate hf
    refine ⟨rfl, rfl, fun j hj => chainAt_modify_of_ne t _ _ hj, fun l hl => ?_, fun hk => ?_⟩
    · -- the key stands at one link only, so `l` is the link the search found
      rw [bucketIndex_eq_bucketOf] at hl ⊢
      have hik : ((t.chainAt (t.bucketOf k)).map (·.1))[i]? = some k := by simp [hi]
      have hil : i = l := (List.getElem?_inj
        (by simpa using (List.getElem?_eq_some_iff.1 hi).1) hd).1 (hik.trans hl.symm)
      subst hil
      rw [chainAt_modify t _ _ t.count, if_pos rfl]
      exact ⟨Chain.overwrite_eq_set hi v, rfl⟩
    · rw [bucketIndex_eq_bucketOf] at hk
      exact absurd ((Chain.locate_eq_none_iff k _).2 hk) (by rw [find] at hf; simp [hf])
  · have hk : k ∉ (t.chainAt (t.bucketOf k)).map (·.1) := (Chain.locate_eq_none_iff k _).1 hf
    refine ⟨rfl, rfl, fun j hj => chainAt_modify_of_ne t _ _ hj, fun l hl => ?_, fun _ => ?_⟩
    · exact absurd (List.mem_of_getElem? hl) hk
    · rw [bucketIndex_eq_bucketOf, chainAt_modify, if_pos rfl]
      exact ⟨rfl, rfl⟩

/-- Storing an entry that a live well-formed table holds, with the value it holds, goes through
whatever memory can be had and leaves the table exactly as it is. -/
theorem WellFormed.set_of_mem (h : t.WellFormed) (hl : t.freed = false) (mem : Memory) {k : Key}
    {v : Text} (he : (k, v) ∈ t.entries) : ∃ ev, t.set mem k v = .ok (t, ev) := by
  rw [h.entries_eq, List.mem_flatMap] at he
  obtain ⟨i, -, hi⟩ := he
  have hb : t.bucketOf k = i := h.placed i (k, v) hi
  subst hb
  obtain ⟨l, hloc⟩ := Chain.locate_of_mem (h.distinct _) hi
  have hne : t.chainAt (t.bucketOf k) ≠ [] := List.ne_nil_of_mem hi
  cases hs : t.set mem k v with
  | error e =>
    rcases set_eq_error.1 hs with ⟨hf, -⟩ | ⟨-, hf, -⟩
    · simp [hl] at hf
    · rw [find, hloc] at hf
      cases hf
  | ok r =>
    obtain ⟨t', ev⟩ := r
    obtain ⟨-, ⟨i', w, hf, rfl, -⟩ | ⟨hf, -⟩⟩ := set_eq_ok hs
    · rw [find, hloc, Option.some.injEq, Prod.mk.injEq] at hf
      obtain ⟨rfl, rfl⟩ := hf
      refine ⟨ev, ?_⟩
      have hrow : t.buckets.modify (t.bucketOf k) (·.overwrite l v) = t.buckets :=
        h.ordered.modify_eq_self (Chain.overwrite_locate_self hloc) hne
      simp only [hrow]
    · rw [find, hloc] at hf
      cases hf

end Table

open Session in
/-- **A store writes one bucket.** A store step that goes through on a table of a reachable
session was given a key and a text value, and leaves under the table's name a table that differs
from the old one only in the key's bucket, where it overwrote the key's entry in place or linked
a new entry after the tail. -/
theorem store_writes_one_bucket {s : Session} (hs : s.Reachable) {name : Text} {t : Table}
    (ht : s.table? name = some t) {key value : Datum} {r : Reply}
    (hr : (s.step ⟨some name, .table (.set key value)⟩).2.reply = .ok r) :
    ∃ k v t', Key.check key = .ok k ∧ value = .str v ∧ t.freed = false ∧
      (s.step ⟨some name, .table (.set key value)⟩).1.table? name = some t' ∧
      t.WritesOneBucket k v t' := by
  have hcmd : ∀ count, Command.set key value ≠ .create count := fun _ h => by cases h
  obtain ⟨hreply, htab⟩ := step_on_table ht hcmd
  rw [hreply] at hr
  obtain ⟨k, v, t', ev, hk, hv, hset, heq⟩ := command_set_reply_ok hr
  refine ⟨k, v, t', hk, hv, (Table.set_eq_ok hset).1, ?_,
    (hs.wellFormed name t ht).writesOneBucket hset⟩
  rw [htab name, if_pos rfl, heq]
  rfl

/-- Three stores that write one bucket: the first key of a table of one bucket, just made, which
becomes the head of the chain; a new key of the table holding "a" and "b" in that chain, which
goes after its tail; and a new value for "a" there, which overwrites the head in place. -/
theorem crowded_stores_write_one_bucket :
    Session.oneBucket.Reachable ∧
      (∃ t, Session.oneBucket.table? (.ofString "t") = some t ∧ (t.chainAt 0).length = 0 ∧
        (Session.oneBucket.step ⟨some (.ofString "t"),
          .table (.set (.str (.ofString "a")) (.str (.ofString "1")))⟩).2.reply =
          .ok (.flag true) ∧
        ∃ k v t', Key.check (.str (.ofString "a")) = .ok k ∧
          Datum.str (.ofString "1") = .str v ∧ t.freed = false ∧
          (Session.oneBucket.step ⟨some (.ofString "t"),
            .table (.set (.str (.ofString "a")) (.str (.ofString "1")))⟩).1.table?
              (.ofString "t") = some t' ∧
          t.WritesOneBucket k v t') ∧
    Session.crowded.Reachable ∧
      (∃ t, Session.crowded.table? (.ofString "t") = some t ∧ (t.chainAt 0).length = 2 ∧
        (Session.crowded.step ⟨some (.ofString "t"),
          .table (.set (.str (.ofString "c")) (.str (.ofString "3")))⟩).2.reply =
          .ok (.flag true) ∧
        ∃ k v t', Key.check (.str (.ofString "c")) = .ok k ∧
          Datum.str (.ofString "3") = .str v ∧ t.freed = false ∧
          (Session.crowded.step ⟨some (.ofString "t"),
            .table (.set (.str (.ofString "c")) (.str (.ofString "3")))⟩).1.table?
              (.ofString "t") = some t' ∧
          t.WritesOneBucket k v t') ∧
      ∃ t, Session.crowded.table? (.ofString "t") = some t ∧ (t.chainAt 0).length = 2 ∧
        (Session.crowded.step ⟨some (.ofString "t"),
          .table (.set (.str (.ofString "a")) (.str (.ofString "9")))⟩).2.reply =
          .ok (.flag false) ∧
        ∃ k v t', Key.check (.str (.ofString "a")) = .ok k ∧
          Datum.str (.ofString "9") = .str v ∧ t.freed = false ∧
          (Session.crowded.step ⟨some (.ofString "t"),
            .table (.set (.str (.ofString "a")) (.str (.ofString "9")))⟩).1.table?
              (.ofString "t") = some t' ∧
          t.WritesOneBucket k v t' :=
  ⟨Session.Reachable.start.advance _,
    ⟨_, rfl, rfl, rfl, store_writes_one_bucket (Session.Reachable.start.advance _) rfl
      (show _ = Except.ok (Reply.flag true) from rfl)⟩,
    Session.Reachable.start.advance _,
    ⟨_, rfl, rfl, rfl, store_writes_one_bucket (Session.Reachable.start.advance _) rfl
      (show _ = Except.ok (Reply.flag true) from rfl)⟩,
    ⟨_, rfl, rfl, rfl, store_writes_one_bucket (Session.Reachable.start.advance _) rfl
      (show _ = Except.ok (Reply.flag false) from rfl)⟩⟩

end Chaining
