import Chaining.Proofs.Occupancy
import Chaining.Proofs.MapView

/-!
# The listing of a table

A live table lists itself under a name as a header, a line with its entry count and bucket count,
and one record per entry, in the order of its key listing, each key with its value. The first
entry of a bucket opens it with the bucket's index, padded with zeros to four digits; every later
entry of the bucket is marked as a continuation. Empty buckets list nothing, so there are as many
records as entries and as many opening records as buckets that hold a key.

* `Record`, `Record.line`, `Record.ofEntries`: a record, its line, and the records of entries
  listed in order, each opening its bucket when no entry before it lies there.
* `Record.ofEntries_chain`, `Record.ofEntries_occupied`: a chain of one bucket continues it, and
  a walk over occupied buckets opens each once, at the head of its chain.
* `Record.opens_ofEntries`, `Record.length_opening_ofEntries`: each bucket of the entries is
  opened exactly once.
* `WellFormed.dump_eq`: the listing, as the records of the table's entries.
* `reachable_table_lists_as_documented`: what the listing of a live table shows.
-/

namespace Chaining

@[ext] theorem Text.ext {a b : Text} (h : a.points = b.points) : a = b := by
  cases a
  cases b
  cases h
  rfl

theorem Text.points_join_empty : ∀ ts : List Text,
    (Text.join .empty ts).points = ts.flatMap (·.points)
  | [] => rfl
  | [_] => by simp [Text.join]
  | t :: t' :: ts => by
    rw [Text.join, Text.points_append, Text.points_append, Text.points_join_empty (t' :: ts)]
    · simp [Text.empty]
    · exact List.cons_ne_nil t' ts

namespace Row

variable {κ ν : Type}

/-- In kept buckets of distinct indices, each kept bucket's chain is the chain of its index. -/
theorem chainIn_of_mem {p : Nat × Chain κ ν} : ∀ {l : List (Nat × Chain κ ν)},
    (l.Pairwise fun p q => p.1 < q.1) → p ∈ l → chainIn p.1 l = p.2
  | [], _, hp => absurd hp List.not_mem_nil
  | (j, d) :: rest, hs, hp => by
    rw [List.pairwise_cons] at hs
    rcases List.mem_cons.1 hp with rfl | hp
    · simp [chainIn]
    · have hj : j ≠ p.1 := Nat.ne_of_lt (hs.1 p hp)
      simp only [chainIn, if_neg hj]
      exact chainIn_of_mem hs.2 hp

/-- The entries of a row are those of its occupied buckets: an empty chain holds none. -/
theorem entries_eq_occupied (r : Row κ ν) : r.entries = r.occupied.flatMap (·.2) := by
  obtain ⟨l⟩ := r
  simp only [entries, occupied]
  induction l with
  | nil => rfl
  | cons p rest ih =>
    cases hp : p.2 with
    | nil => simp [hp, ih]
    | cons e c => simp [hp, ih]

end Row

/-- One record of a listing: an entry, and the bucket it opens when it is the first entry listed
in its bucket. -/
structure Record where
  opens : Option Nat
  entry : Key × Text

namespace Record

/-- The line of a record: the index of the bucket it opens, in four digits or more, and a space,
or `   | ` for a later entry of its bucket; then the key and the value, each quoted. -/
def line (r : Record) : Text :=
  .ofString (match r.opens with | some i => Numeral.padded 4 i ++ " " | none => "   | ") ++
    .ofString "'" ++ r.entry.1.text ++ .ofString "' -> '" ++ r.entry.2 ++ .ofString "'\n"

/-- The records of entries listed in order, where `bucket` places each key: an entry opens its
bucket when no entry before it lies there. The buckets in `opened` count as opened already. -/
def ofEntries (bucket : Key → Nat) (opened : List Nat) : List (Key × Text) → List Record
  | [] => []
  | e :: es =>
    if bucket e.1 ∈ opened then ⟨none, e⟩ :: ofEntries bucket opened es
    else ⟨some (bucket e.1), e⟩ :: ofEntries bucket (bucket e.1 :: opened) es

variable (bucket : Key → Nat)

/-- The records carry the entries, in order. -/
theorem entries_ofEntries : ∀ (opened : List Nat) (es : List (Key × Text)),
    (ofEntries bucket opened es).map (·.entry) = es
  | _, [] => rfl
  | opened, e :: es => by
    by_cases h : bucket e.1 ∈ opened
    · simp [ofEntries, h, entries_ofEntries opened es]
    · simp [ofEntries, h, entries_ofEntries (bucket e.1 :: opened) es]

/-- Entries of a bucket already opened continue it. -/
theorem ofEntries_chain {i : Nat} {opened : List Nat} (hi : i ∈ opened) (rest : List (Key × Text)) :
    ∀ {c : List (Key × Text)}, (∀ e ∈ c, bucket e.1 = i) →
      ofEntries bucket opened (c ++ rest) = c.map (⟨none, ·⟩) ++ ofEntries bucket opened rest
  | [], _ => rfl
  | e :: c, hc => by
    have he : bucket e.1 ∈ opened := (hc e List.mem_cons_self).symm ▸ hi
    rw [List.cons_append, ofEntries, if_pos he, ofEntries_chain hi rest
      fun e' he' => hc e' (List.mem_cons_of_mem _ he')]
    rfl

/-- The buckets the records open are distinct, and are the buckets of the entries not opened
already. -/
theorem opens_ofEntries : ∀ (opened : List Nat) (es : List (Key × Text)),
    ((ofEntries bucket opened es).filterMap (·.opens)).Nodup ∧
      ∀ b, b ∈ (ofEntries bucket opened es).filterMap (·.opens) ↔
        b ∉ opened ∧ ∃ e ∈ es, bucket e.1 = b
  | _, [] => by simp [ofEntries]
  | opened, e :: es => by
    by_cases h : bucket e.1 ∈ opened
    · obtain ⟨hnd, hmem⟩ := opens_ofEntries opened es
      refine ⟨by simpa [ofEntries, h] using hnd, fun b => ?_⟩
      simp only [ofEntries, if_pos h, List.filterMap_cons, hmem, List.mem_cons,
        exists_eq_or_imp]
      constructor
      · exact fun ⟨hb, hex⟩ => ⟨hb, .inr hex⟩
      · rintro ⟨hb, rfl | hex⟩
        · exact absurd h hb
        · exact ⟨hb, hex⟩
    · obtain ⟨hnd, hmem⟩ := opens_ofEntries (bucket e.1 :: opened) es
      have hfresh : bucket e.1 ∉ (ofEntries bucket (bucket e.1 :: opened) es).filterMap (·.opens) :=
        fun hb => ((hmem _).1 hb).1 List.mem_cons_self
      refine ⟨?_, fun b => ?_⟩
      · rw [ofEntries, if_neg h, List.filterMap_cons]
        exact List.nodup_cons.2 ⟨hfresh, hnd⟩
      simp only [ofEntries, if_neg h, List.filterMap_cons, List.mem_cons, hmem,
        exists_eq_or_imp]
      by_cases hb : b = bucket e.1
      · subst hb
        simp [h]
      · simp [hb, Ne.symm hb]

/-- As many records open a bucket as there are buckets below `n` holding an entry, when every
bucket is below `n`. -/
theorem length_opening_ofEntries {n : Nat} {es : List (Key × Text)} (hb : ∀ e ∈ es, bucket e.1 < n) :
    ((ofEntries bucket [] es).filter (·.opens.isSome)).length =
      ((List.range n).filter fun i => es.any fun e => bucket e.1 == i).length := by
  obtain ⟨hnd, hmem⟩ := opens_ofEntries bucket [] es
  have hperm : ((List.range n).filter fun i => es.any fun e => bucket e.1 == i).Perm
      ((ofEntries bucket [] es).filterMap (·.opens)) := by
    refine (List.perm_ext_iff_of_nodup (List.nodup_range.filter _) hnd).2 fun i => ?_
    rw [hmem]
    simp only [List.mem_filter, List.mem_range, List.any_eq_true, beq_iff_eq, List.not_mem_nil,
      not_false_eq_true, true_and]
    exact ⟨fun h => h.2, fun ⟨e, he, hi⟩ => ⟨hi ▸ hb e he, e, he, hi⟩⟩
  rw [hperm.length_eq, List.length_filterMap_eq_countP, List.countP_eq_length_filter]

/-- The line of the entry at link `link` of bucket `i` is the line of its record, which opens
the bucket at the head of the chain and continues it after. -/
theorem dumpLine_eq (i link : Nat) (e : Key × Text) :
    Table.dumpLine i link e = line ⟨if link = 0 then some i else none, e⟩ := by
  by_cases h : link = 0 <;> simp [Table.dumpLine, line, h]

theorem lines_zipIdx_succ (i : Nat) : ∀ (c : List (Key × Text)) (n : Nat),
    ((c.zipIdx (n + 1)).map fun (e, link) => Table.dumpLine i link e) =
      c.map fun e => line ⟨none, e⟩
  | [], _ => rfl
  | e :: c, n => by
    rw [List.zipIdx_cons, List.map_cons, lines_zipIdx_succ i c (n + 1), List.map_cons]
    simp [dumpLine_eq]

/-- Walking occupied buckets of distinct indices, none opened yet, each chain holding keys of
its own bucket only, the records' lines are the lines of the chains: each bucket opened at the
head of its chain and continued after. -/
theorem ofEntries_occupied : ∀ {L : List (Nat × Chain Key Text)} (opened : List Nat),
    (L.Pairwise fun p q => p.1 < q.1) → (∀ p ∈ L, p.2 ≠ []) →
    (∀ p ∈ L, ∀ e ∈ p.2, bucket e.1 = p.1) → (∀ p ∈ L, p.1 ∉ opened) →
    (ofEntries bucket opened (L.flatMap (·.2))).map line =
      L.flatMap fun p => p.2.zipIdx.map fun (e, link) => Table.dumpLine p.1 link e
  | [], _, _, _, _, _ => rfl
  | (_, []) :: _, _, _, hne, _, _ => absurd rfl (hne _ List.mem_cons_self)
  | (i, e :: c) :: L, opened, hs, hne, hplaced, hfresh => by
    rw [List.pairwise_cons] at hs
    have he : bucket e.1 = i := hplaced _ List.mem_cons_self e List.mem_cons_self
    have hi : i ∉ opened := hfresh _ List.mem_cons_self
    have hc : ∀ e' ∈ c, bucket e'.1 = i :=
      fun e' he' => hplaced _ List.mem_cons_self e' (List.mem_cons_of_mem _ he')
    -- the head opens bucket `i`, the rest of its chain continues it, and the later buckets are
    -- all above `i`, so none of them is opened yet
    have ih := ofEntries_occupied (i :: opened) hs.2
      (fun p hp => hne p (List.mem_cons_of_mem _ hp))
      (fun p hp => hplaced p (List.mem_cons_of_mem _ hp))
      (fun p hp => by
        rw [List.mem_cons, not_or]
        exact ⟨Nat.ne_of_gt (hs.1 p hp), hfresh p (List.mem_cons_of_mem _ hp)⟩)
    rw [List.flatMap_cons, List.cons_append, ofEntries, he, if_neg hi,
      ofEntries_chain bucket List.mem_cons_self _ hc, List.map_cons, List.map_append, ih,
      List.flatMap_cons, List.zipIdx_cons, List.map_cons, lines_zipIdx_succ i c 0]
    simp [dumpLine_eq]

end Record

namespace Table

variable {t : Table}

/-- In a well-formed table, each entry is what a lookup of its key finds. -/
theorem WellFormed.lookup_of_mem (h : t.WellFormed) {e : Key × Text} (he : e ∈ t.entries) :
    t.lookup e.1 = some e.2 := by
  have hsome : (t.entries.find? (·.1 == e.1)).isSome := List.find?_isSome.2 ⟨e, he, by simp⟩
  obtain ⟨e', hfind⟩ := Option.isSome_iff_exists.1 hsome
  have hk : e'.1 = e.1 := by simpa using List.find?_some hfind
  have heq : e' = e := List.inj_on_of_nodup_map h.keys_nodup (List.mem_of_find?_eq_some hfind) he hk
  simp [lookup, hfind, heq]

/-- The listing of a live well-formed table under `label`: the header, the count line, and the
lines of the records of its entries. -/
theorem WellFormed.dump_eq (h : t.WellFormed) (hl : t.freed = false) (label : Datum) :
    t.dump label = .ok (.ofString "== " ++ label.display ++ .ofString " ==\n" ++
      .ofString (Numeral.int t.count ++ " entries in ") ++ t.shape.display ++
      .ofString " buckets\n" ++
      .join .empty ((Record.ofEntries t.bucketIndex [] t.entries).map Record.line)) := by
  have hs : t.occupied.Pairwise fun p q => p.1 < q.1 :=
    h.ordered.increasing.sublist List.filter_sublist
  have hne : ∀ p ∈ t.occupied, p.2 ≠ [] := fun p hp => by
    simpa [occupied, Row.occupied] using (List.mem_filter.1 hp).2
  have hplaced : ∀ p ∈ t.occupied, ∀ e ∈ p.2, t.bucketIndex e.1 = p.1 := fun p hp e he => by
    have hkept : p ∈ t.buckets.kept := (List.mem_filter.1 hp).1
    have hchain : t.chainAt p.1 = p.2 := Row.chainIn_of_mem h.ordered.increasing hkept
    exact h.placed p.1 e (hchain ▸ he)
  have hlines := Record.ofEntries_occupied t.bucketIndex [] hs hne hplaced
    fun _ _ => List.not_mem_nil
  rw [dump, if_neg (by simp [hl])]
  congr 2
  ext1
  rw [entries, Row.entries_eq_occupied, ← occupied, hlines]
  simp [Text.points_join_empty, dumpChain, List.flatMap_assoc, List.flatMap_map]

end Table

/-- How the table `t`, held under `name` with entries `es`, lists itself. The key listing is the
keys of `es` in order, each key's value is the one paired with it, and the entry count is their
number. Under any label the listing is a header naming the label, a line with the entry count and
the bucket count, and the lines of the records of `es`: each entry with its value, in order, the
first entry of each bucket opening it with the bucket's index and every later one continuing it.
As many records open a bucket as there are buckets some listed key lies in, as the session
reports each key's bucket; buckets holding no key list nothing. -/
structure Session.ListsAsDocumented (s : Session) (name : Text) (t : Table)
    (es : List (Key × Text)) : Prop where
  keys : (s.step ⟨some name, .table .keys⟩).2.reply = .ok (.keys (es.map (·.1)))
  len : (s.step ⟨some name, .table .len⟩).2.reply = .ok (.number es.length)
  values : ∀ e ∈ es, (s.step ⟨some name, .table (.get (.str e.1.text))⟩).2.reply = .ok (.text e.2)
  bucket : ∀ e ∈ es, (s.step ⟨some name, .table (.bucketIndex (.str e.1.text))⟩).2.reply =
    .ok (.number (t.bucketIndex e.1))
  dump : ∀ label, (s.step ⟨some name, .table (.dump label)⟩).2.reply = .ok (.text
    (.ofString "== " ++ label.display ++ .ofString " ==\n" ++
      .ofString (Numeral.int es.length ++ " entries in ") ++ t.shape.display ++
      .ofString " buckets\n" ++ .join .empty ((Record.ofEntries t.bucketIndex [] es).map Record.line)))
  entries : (Record.ofEntries t.bucketIndex [] es).map (·.entry) = es
  openings : ((Record.ofEntries t.bucketIndex [] es).filter (·.opens.isSome)).length =
    ((List.range t.shape.toNat).filter fun i => es.any fun e => t.bucketIndex e.1 == i).length

open Session in
/-- **The listing of a table is as documented.** Every live table in a session a run reaches lists
itself as `ListsAsDocumented` says, for its own entries in the order of its key listing. -/
theorem reachable_table_lists_as_documented {s : Session} (hs : s.Reachable) {name : Text}
    {t : Table} (ht : s.table? name = some t) (hl : t.freed = false) :
    ∃ es, s.ListsAsDocumented name t es := by
  have hwf : t.WellFormed := hs.wellFormed name t ht
  refine ⟨t.entries, step_keys_reply hwf ht hl, by rw [step_len_reply ht hl, hwf.length_entries],
    fun e he => ?_, fun e _ => step_bucketIndex_reply ht e.1, fun label => ?_,
    Record.entries_ofEntries _ _ _, Record.length_opening_ofEntries _ fun e _ => t.bucketOf_lt e.1⟩
  · rw [(step_on_table ht fun _ h => by cases h).1, get_reply hwf hl (Key.check_text e.1),
      hwf.lookup_of_mem he]
    rfl
  · rw [(step_on_table ht fun _ h => by cases h).1]
    simp [command, hwf.dump_eq hl, hwf.length_entries, Outcome.answer, Except.map]

/-- The table of one bucket holding two entries lists itself as documented. -/
theorem crowded_table_lists_as_documented :
    Session.crowded.Reachable ∧
      ∃ t, Session.crowded.table? (.ofString "t") = some t ∧ t.freed = false ∧
        ∃ es, Session.crowded.ListsAsDocumented (.ofString "t") t es :=
  ⟨Session.Reachable.start.advance _, _, rfl, rfl,
    reachable_table_lists_as_documented (Session.Reachable.start.advance _) rfl rfl⟩

end Chaining
