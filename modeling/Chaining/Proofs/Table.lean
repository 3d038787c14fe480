import Mathlib.Data.List.Nodup
import Mathlib.Data.Set.Card
import Chaining.Table.Ops
import Chaining.Proofs.Chain
import Chaining.Proofs.Row
import Chaining.Proofs.Walk

/-!
# Well-formed tables

A table reads as a finite map only while its chains stay in shape: each entry sits in the bucket
its key hashes to, no chain holds a key twice, and the count kept beside the chains is the
number of entries on them. `Table.WellFormed` collects these facts with the order of the kept
buckets and what a released table holds. A new table has them, and every store keeps them.

* `WellFormed`: the invariant.
* `WellFormed.lookup_eq`: the first entry with a key on a walk over every chain is the one
  a search of the key's own bucket finds.
* `WellFormed.keys_nodup`: no key is held twice in the whole table.
* `set_eq_ok`, `set_eq_error`: what a store can do.
* `WellFormed.set`, `WellFormed.lookup_set`: a store keeps the invariant and updates the map
  at its key.
* `unlinkAll_eq`, `released_eq_size`: the release runs the unlinking loop on each chain, which
  unlinks it as `Chain.unlink` says, and so releases one entry for each entry on the chains.
-/

namespace Chaining

/-- The first value `f` gives on a list is its value at `b` when every other member of the list
gives none. -/
theorem findSome?_eq_of_unique {α β : Type} {f : α → Option β} {b : α} :
    ∀ {l : List α}, b ∈ l → (∀ a ∈ l, a ≠ b → f a = none) → l.findSome? f = f b
  | [], hb, _ => absurd hb List.not_mem_nil
  | a :: rest, hb, h => by
    by_cases hab : a = b
    · subst hab
      rw [List.findSome?_cons]
      cases hfa : f a with
      | some x => rfl
      | none =>
        refine List.findSome?_eq_none_iff.2 fun x _ => ?_
        by_cases hx : x = a
        · rw [hx, hfa]
        · exact h x (List.mem_cons_of_mem _ ‹_›) hx
    · rw [List.findSome?_cons, h a List.mem_cons_self hab]
      exact findSome?_eq_of_unique ((List.mem_cons.1 hb).resolve_left (Ne.symm hab))
        fun x hx => h x (List.mem_cons_of_mem _ hx)

/-- Changing one of the lists `g` gives, among those of indices below `n`, changes the length of
all of them by the change of that one. -/
theorem length_flatMap_range_update {α : Type} (g g' : Nat → List α) {b : Nat}
    (h : ∀ j, j ≠ b → g' j = g j) : ∀ {n : Nat}, b < n →
    ((List.range n).flatMap g').length + (g b).length =
      ((List.range n).flatMap g).length + (g' b).length
  | 0, hb => absurd hb (Nat.not_lt_zero _)
  | n + 1, hb => by
    simp only [List.range_succ, List.flatMap_append, List.length_append, List.flatMap_cons,
      List.flatMap_nil, List.append_nil]
    by_cases hnb : n = b
    · subst hnb
      have hlow : (List.range n).flatMap g' = (List.range n).flatMap g := by
        rw [List.flatMap_def, List.flatMap_def]
        congr 1
        exact List.map_congr_left fun j hj => h j (Nat.ne_of_lt (List.mem_range.1 hj))
      rw [hlow]
      omega
    · have ih := length_flatMap_range_update g g' h (show b < n by omega)
      rw [h n hnb]
      omega

namespace Table

/-- What every table of a session keeps: its kept buckets stand in index order below the bucket
count, every entry sits in the bucket of its key, no chain holds a key twice, the count is the
number of entries on the chains, and a released table holds nothing. -/
structure WellFormed (t : Table) : Prop where
  ordered : t.buckets.Ordered t.shape.toNat
  placed : ∀ i, ∀ e ∈ t.chainAt i, t.bucketOf e.1 = i
  distinct : ∀ i, ((t.chainAt i).map (·.1)).Nodup
  counted : t.count = t.size
  released : t.freed = true → t.buckets = .empty ∧ t.count = 0

variable {t : Table}

theorem wellFormed_create (c : BucketCount) : (create c).WellFormed where
  ordered := Row.ordered_empty _
  placed i e he := by simp [create, chainAt, Row.get_empty] at he
  distinct i := by simp [create, chainAt, Row.get_empty]
  counted := (size_create c).symm
  released h := by simp [create] at h

theorem bucketOf_lt (t : Table) (k : Key) : t.bucketOf k < t.shape.toNat :=
  Key.bucket_lt k t.shape.toNat_pos

theorem WellFormed.entries_eq (h : t.WellFormed) :
    t.entries = (List.range t.shape.toNat).flatMap t.chainAt :=
  h.ordered.entries_eq

theorem WellFormed.keys_nodup (h : t.WellFormed) : (t.entries.map (·.1)).Nodup := by
  rw [h.entries_eq, List.map_flatMap, List.nodup_flatMap]
  refine ⟨fun i _ => h.distinct i, List.nodup_range.pairwise_of_forall_ne fun i _ j _ hij => ?_⟩
  -- two buckets share no key, since every key lies in its own bucket
  intro k hi hj
  obtain ⟨e, he, rfl⟩ := List.mem_map.1 hi
  obtain ⟨e', he', hk⟩ := List.mem_map.1 hj
  exact hij ((h.placed i e he).symm.trans (hk ▸ h.placed j e' he'))

theorem lookup_isSome_iff (t : Table) (k : Key) :
    (t.lookup k).isSome ↔ k ∈ t.entries.map (·.1) := by
  simp [lookup, List.find?_isSome]

/-- The map a walk over every chain reads is the one the search of each key's own bucket
reads. -/
theorem WellFormed.lookup_eq (h : t.WellFormed) (k : Key) : t.lookup k = (t.find k).map (·.2) := by
  rw [lookup, h.entries_eq, List.find?_flatMap, find, Chain.locate_map_snd]
  congr 1
  refine findSome?_eq_of_unique (List.mem_range.2 (t.bucketOf_lt k)) fun i _ hi => ?_
  refine List.find?_eq_none.2 fun e he hek => hi ?_
  rw [← h.placed i e he, show e.1 = k by simpa using hek]

/-! ## Stores -/

theorem set_of_freed (h : t.freed = true) (mem : Memory) (k : Key) (v : Text) :
    t.set mem k v = .error .freed := by
  simp [set, h]

/-- What a store that succeeds did: it overwrote the value where the key was found, or, when the
key was not found and memory could be had, appended an entry at the tail of the key's bucket
and counted it. -/
theorem set_eq_ok {mem : Memory} {k : Key} {v : Text} {t' : Table} {ev : TraceEvent}
    (hs : t.set mem k v = .ok (t', ev)) :
    t.freed = false ∧
      ((∃ i w, t.find k = some (i, w) ∧
          t' = { t with buckets := t.buckets.modify (t.bucketOf k) (·.overwrite i v) } ∧
          ev = ⟨.overwriting, t.bucketOf k, i, k, v⟩) ∨
        (t.find k = none ∧ mem = .available ∧
          t' = { t with buckets := t.buckets.modify (t.bucketOf k) (·.append k v),
                        count := t.count + 1 } ∧
          ev = ⟨.adding, t.bucketOf k, (t.chainAt (t.bucketOf k)).length, k, v⟩)) := by
  unfold set at hs
  cases hf : t.freed
  · simp only [hf, Bool.false_eq_true, if_false] at hs
    refine ⟨rfl, ?_⟩
    unfold find
    split at hs
    · rename_i i w hloc
      simp only [Except.ok.injEq, Prod.mk.injEq] at hs
      exact .inl ⟨i, w, hloc, hs.1.symm, hs.2.symm⟩
    · rename_i hloc
      cases mem with
      | exhausted => simp at hs
      | available =>
        simp only [Except.ok.injEq, Prod.mk.injEq] at hs
        exact .inr ⟨hloc, rfl, hs.1.symm, hs.2.symm⟩
  · simp [hf] at hs

/-- A store is refused only on a released table, or for a key the table does not hold when no
memory can be had. -/
theorem set_eq_error {mem : Memory} {k : Key} {v : Text} {e : Fault} :
    t.set mem k v = .error e ↔
      (t.freed = true ∧ e = .freed) ∨
        (t.freed = false ∧ t.find k = none ∧ mem = .exhausted ∧ e = .entryUnavailable k.text) := by
  unfold set find
  cases hf : t.freed
  · simp only [Bool.false_eq_true, if_false, false_and, false_or, true_and]
    cases hloc : (t.chainAt (t.bucketOf k)).locate k with
    | some r => simp
    | none =>
      cases mem with
      | exhausted => simp [eq_comm]
      | available => simp
  · simp [eq_comm]

/-- A store reports its key and value, and never as a read. -/
theorem set_event {mem : Memory} {k : Key} {v : Text} {t' : Table} {ev : TraceEvent}
    (hs : t.set mem k v = .ok (t', ev)) : ev.key = k ∧ ev.value = v ∧ ev.action ≠ .getting := by
  obtain ⟨-, ⟨i, w, -, -, rfl⟩ | ⟨-, -, -, rfl⟩⟩ := set_eq_ok hs <;> simp

theorem set_shape {mem : Memory} {k : Key} {v : Text} {t' : Table} {ev : TraceEvent}
    (hs : t.set mem k v = .ok (t', ev)) : t'.shape = t.shape := by
  obtain ⟨-, ⟨i, w, -, rfl, -⟩ | ⟨-, -, rfl, -⟩⟩ := set_eq_ok hs <;> rfl

theorem size_modify (ho : t.buckets.Ordered t.shape.toNat) {b : Nat} (hb : b < t.shape.toNat)
    (f : Chain Key Text → Chain Key Text) (c : Nat) :
    ({ t with buckets := t.buckets.modify b f, count := c }).size + (t.chainAt b).length =
      t.size + (f (t.chainAt b)).length := by
  have hlen := length_flatMap_range_update t.buckets.get (t.buckets.modify b f).get
    (fun j hj => by rw [Row.get_modify, if_neg hj]) hb
  rw [Row.get_modify, if_pos rfl] at hlen
  simp only [size, entries]
  rw [(ho.modify hb f).entries_eq, ho.entries_eq]
  exact hlen

theorem find_modify (b : Nat) (f : Chain Key Text → Chain Key Text) (c : Nat) (k : Key) :
    ({ t with buckets := t.buckets.modify b f, count := c }).find k =
      if t.bucketOf k = b then (f (t.chainAt b)).locate k else t.find k := by
  show ((t.buckets.modify b f).get (t.bucketOf k)).locate k = _
  rw [Row.get_modify]
  by_cases hb : t.bucketOf k = b
  · rw [if_pos hb, if_pos hb]
    rfl
  · rw [if_neg hb, if_neg hb]
    rfl

/-- Giving one bucket of a live table a new chain keeps the table well formed when the chain's
keys belong to the bucket and are distinct, and the count moves by the change in length. -/
theorem WellFormed.modify (h : t.WellFormed) (hlive : t.freed = false) {b : Nat}
    (hb : b < t.shape.toNat) {f : Chain Key Text → Chain Key Text} {c : Nat}
    (hplaced : ∀ e ∈ f (t.chainAt b), t.bucketOf e.1 = b)
    (hdistinct : ((f (t.chainAt b)).map (·.1)).Nodup)
    (hcount : c + (t.chainAt b).length = t.count + (f (t.chainAt b)).length) :
    ({ t with buckets := t.buckets.modify b f, count := c }).WellFormed where
  ordered := h.ordered.modify hb f
  placed j e he := by
    simp only [chainAt, Row.get_modify] at he
    split at he
    · subst j
      exact hplaced e he
    · exact h.placed j e he
  distinct j := by
    simp only [chainAt, Row.get_modify]
    split
    · subst j
      exact hdistinct
    · exact h.distinct j
  counted := by
    show c = _
    have := size_modify h.ordered hb f c
    have := h.counted
    omega
  released hf := by simp [hlive] at hf

theorem WellFormed.set (h : t.WellFormed) {mem : Memory} {k : Key} {v : Text} {t' : Table}
    {ev : TraceEvent} (hs : t.set mem k v = .ok (t', ev)) : t'.WellFormed := by
  obtain ⟨hlive, ⟨i, w, -, rfl, -⟩ | ⟨hk, -, rfl, -⟩⟩ := set_eq_ok hs
  · -- an overwrite keeps the keys of the chain, and so their bucket and their distinctness
    have hkeys := Chain.keys_overwrite (t.chainAt (t.bucketOf k)) i v
    refine h.modify hlive (t.bucketOf_lt k) (fun e he => ?_) (hkeys ▸ h.distinct _)
      (by rw [Chain.length_overwrite])
    have he' : e.1 ∈ (t.chainAt (t.bucketOf k)).map (·.1) := hkeys ▸ List.mem_map_of_mem he
    obtain ⟨e', he', hee⟩ := List.mem_map.1 he'
    rw [← hee]
    exact h.placed _ e' he'
  · have hnew : k ∉ (t.chainAt (t.bucketOf k)).map (·.1) :=
      (Chain.locate_eq_none_iff k _).1 hk
    refine h.modify hlive (t.bucketOf_lt k) (fun e he => ?_) ?_ (by rw [Chain.length_append]; omega)
    · rcases List.mem_append.1 he with he | he
      · exact h.placed _ e he
      · rw [List.mem_singleton.1 he]
    · rw [Chain.keys_append, List.nodup_append]
      exact ⟨h.distinct _, List.nodup_singleton k,
        fun a ha b hb => by rw [List.mem_singleton.1 hb]; exact fun hak => hnew (hak ▸ ha)⟩

/-- A store that succeeds updates the map at its key and nowhere else. -/
theorem WellFormed.lookup_set (h : t.WellFormed) {mem : Memory} {k : Key} {v : Text}
    {t' : Table} {ev : TraceEvent} (hs : t.set mem k v = .ok (t', ev)) :
    t'.lookup = Function.update t.lookup k (some v) := by
  have h' := h.set hs
  funext k'
  rw [h'.lookup_eq, Function.update_apply, h.lookup_eq]
  obtain ⟨-, ⟨i, w, hk, rfl, -⟩ | ⟨hk, -, rfl, -⟩⟩ := set_eq_ok hs
  · rw [find_modify]
    by_cases hkk : k' = k
    · subst hkk
      simp [Chain.locate_overwrite hk]
    · by_cases hb : t.bucketOf k' = t.bucketOf k
      · simp only [find] at hk ⊢
        simp [hb, hkk, Chain.locate_overwrite hk, Ne.symm hkk]
      · simp [hb, hkk]
  · rw [find_modify]
    by_cases hkk : k' = k
    · subst hkk
      simp only [find] at hk
      simp [Chain.locate_append, hk]
    · by_cases hb : t.bucketOf k' = t.bucketOf k
      · simp only [find]
        simp [hb, hkk, Chain.locate_append, Ne.symm hkk]
      · simp [hb, hkk]

/-- A store adds its key exactly when the map has none there. -/
theorem WellFormed.set_adding_iff (h : t.WellFormed) {mem : Memory} {k : Key} {v : Text}
    {t' : Table} {ev : TraceEvent} (hs : t.set mem k v = .ok (t', ev)) :
    ev.action = .adding ↔ t.lookup k = none := by
  rw [h.lookup_eq, Option.map_eq_none_iff]
  obtain ⟨-, ⟨i, w, hk, -, rfl⟩ | ⟨hk, -, -, rfl⟩⟩ := set_eq_ok hs <;> simp [hk]

/-! ## Runs of stores, reads and release -/

/-- A run of stores into a well-formed table leaves it well formed, reports nothing but stores,
and leaves the map updated at each stored key in turn. -/
theorem WellFormed.setAll (h : t.WellFormed) (mem : Memory) (es : List (Key × Text)) :
    (Table.setAll mem es t).table.WellFormed ∧
      (∀ ev ∈ (Table.setAll mem es t).events, ev.action ≠ .getting) ∧
      (Table.setAll mem es t).table.lookup =
        ((Table.setAll mem es t).events.map fun ev => (ev.key, ev.value)).foldl
          (fun (m : Key → Option Text) p => Function.update m p.1 (some p.2)) t.lookup := by
  induction es generalizing t with
  | nil => exact ⟨h, by simp [Table.setAll], rfl⟩
  | cons e rest ih =>
    obtain ⟨k, v⟩ := e
    cases hs : t.set mem k v with
    | error err => simp [Table.setAll, hs, h]
    | ok r =>
      obtain ⟨t', ev⟩ := r
      obtain ⟨hwf, hact, hlook⟩ := ih (h.set hs)
      obtain ⟨hk, hv, hg⟩ := set_event hs
      simp only [Table.setAll, hs]
      refine ⟨hwf, fun ev' hev' => ?_, ?_⟩
      · rcases List.mem_cons.1 hev' with rfl | hev'
        · exact hg
        · exact hact ev' hev'
      · rw [List.map_cons, List.foldl_cons, hk, hv, ← h.lookup_set hs]
        exact hlook

theorem setAll_shape (mem : Memory) (es : List (Key × Text)) (t : Table) :
    (Table.setAll mem es t).table.shape = t.shape := by
  induction es generalizing t with
  | nil => rfl
  | cons e rest ih =>
    obtain ⟨k, v⟩ := e
    cases hs : t.set mem k v with
    | error err => simp [Table.setAll, hs]
    | ok r =>
      obtain ⟨t', ev⟩ := r
      simp only [Table.setAll, hs]
      exact (ih t').trans (set_shape hs)

/-- A run of stores into a released table is refused at its first store, if it has one, and
leaves the table as it was. -/
theorem setAll_of_freed (h : t.freed = true) (mem : Memory) (es : List (Key × Text)) :
    Table.setAll mem es t = ⟨t, [], if es = [] then none else some .freed⟩ := by
  cases es with
  | nil => rfl
  | cons e rest =>
    obtain ⟨k, v⟩ := e
    simp [Table.setAll, set_of_freed h]

/-- A release that goes through was made on a live table, and keeps its bucket count. -/
theorem free_eq_ok {p : Progress} (h : t.free = .ok p) :
    t.freed = false ∧ p.table.shape = t.shape := by
  unfold free at h
  cases hf : t.freed
  · simp only [hf, Bool.false_eq_true, if_false] at h
    split at h <;> (cases h; exact ⟨rfl, rfl⟩)
  · simp [hf] at h

/-- The keys of a live well-formed table fill the buffer its count sizes exactly. -/
theorem WellFormed.keys_eq (h : t.WellFormed) (hl : t.freed = false) :
    t.keys = .ok (t.entries.map (·.1)) := by
  simp [keys, hl, h.counted, size]

/-- The count of a well-formed table is the number of keys its map holds. -/
theorem WellFormed.ncard_dom (h : t.WellFormed) : {k | (t.lookup k).isSome}.ncard = t.count := by
  have hdom : {k | (t.lookup k).isSome} = ↑(t.entries.map (·.1)).toFinset := by
    ext k
    simp [lookup_isSome_iff]
  rw [hdom, Set.ncard_coe_finset, List.toFinset_card_of_nodup h.keys_nodup, List.length_map,
    h.counted, size]

/-- The unlinking loop on each chain, laid out in a heap, unlinks it as `Chain.unlink` says. -/
theorem unlinkAll_eq (t : Table) :
    t.unlinkAll = t.buckets.kept.map fun b =>
      Chain.unlink (.empty, .empty) (b.2.map fun e => (e.1.text, e.2)) := by
  simp only [unlinkAll, Heap.onChain_eq_unlink]

/-- Unlinking every chain releases one entry for each entry on the chains. -/
theorem released_eq_size (t : Table) : (t.unlinkAll.map (·.1)).foldl (· + ·) 0 = t.size := by
  rw [← List.sum_eq_foldl_nat, size, entries, Row.entries, List.length_flatMap, unlinkAll_eq,
    List.map_map]
  congr 1
  refine List.map_congr_left fun b _ => ?_
  simp [Chain.unlink_count]

/-- Unlinking every chain leaves each entry it released with a blank key, a blank value and no
successor. -/
theorem unlinkAll_blank (t : Table) :
    t.unlinkAll.flatMap (·.2) = List.replicate t.size ⟨.empty, .empty, true⟩ := by
  rw [List.eq_replicate_iff]
  constructor
  · simp [unlinkAll_eq, size, entries, Row.entries, List.length_flatMap, Chain.unlink,
      Function.comp_def]
  · intro d hd
    simp only [unlinkAll_eq, Chain.unlink, List.flatMap_map, List.mem_flatMap, List.mem_map] at hd
    obtain ⟨-, -, -, -, rfl⟩ := hd
    rfl

/-- A live well-formed table passes the release's check and is released. -/
theorem WellFormed.free_eq (h : t.WellFormed) (hl : t.freed = false) :
    t.free = .ok ⟨{ t with buckets := .empty, count := 0, freed := true }, [], none⟩ := by
  simp [free, hl, released_eq_size, ← h.counted]

theorem wellFormed_release (t : Table) :
    ({ t with buckets := .empty, count := 0, freed := true }).WellFormed where
  ordered := Row.ordered_empty _
  placed i e he := by simp [chainAt, Row.get_empty] at he
  distinct i := by simp [chainAt, Row.get_empty]
  counted := rfl
  released _ := ⟨rfl, rfl⟩

end Table

end Chaining
