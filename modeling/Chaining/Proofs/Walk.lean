import Chaining.ChainQuery
import Chaining.Proofs.Chain

/-!
# Walking a chain in a heap

A chain in a heap is given by its head and the entries it links, in order (`Heap.Linked`): the
head is the first entry, each entry links to the next and the last to nothing. On every such
chain the routines give what the list of its entries says, as soon as they may make as many
passes as the chain has entries.

The entries of a chain are distinct (`Linked.nodup`): an entry met twice would start the same
chain over, which then could not end. This is what lets the unlinking loop read the successor of
each entry before any write has reached it.

## Main statements

* `walks_as_listed`: the walk meets the entries in order, the count is their number, the search
  finds the first entry with an equal key at its link or nothing at the link past the last, and
  the walk to the tail stops at the last entry.
* `unlinks_every_entry`: the unlinking loop stops after exactly as many passes as the chain has
  entries, releases that many, leaves each of them blank and alone and every other entry of the
  heap as it was.
* `onChain_eq_unlink`: the unlinking loop on a chain laid out from pairs, as a table's release
  runs it on each chain, gives what `Chain.unlink` says of the pairs.
* `answer_find`, `answer_tail`, `answer_unlink`: on a chain laid out from a list of pairs the
  routines answer as the list reads (`Chain.locate`, `Chain.linkOf`, `Chain.tail?`,
  `Chain.unlink`).
-/

namespace Chaining

namespace Heap

variable {κ ν : Type}

/-- The chain from `p` links the entries `as` in order: `p` is the first of them, each links to
the next, and the last links to nothing. -/
inductive Linked (m : Heap κ ν) : Option Nat → List Nat → Prop
  | nil : Linked m none []
  | cons {a : Nat} {as : List Nat} : Linked m (m a).next as → Linked m (some a) (a :: as)

/-! ## Chains -/

section Chains

variable {m : Heap κ ν} {p : Option Nat} {as : List Nat}

theorem linked_nil_iff : m.Linked p [] ↔ p = none := by
  constructor
  · rintro ⟨⟩
    rfl
  · rintro rfl
    exact .nil

theorem linked_cons_iff {a : Nat} :
    m.Linked p (a :: as) ↔ p = some a ∧ m.Linked (m a).next as := by
  constructor
  · intro h
    cases h with
    | cons h => exact ⟨rfl, h⟩
  · rintro ⟨rfl, h⟩
    exact .cons h

theorem Linked.unique {bs : List Nat} (ha : m.Linked p as) (hb : m.Linked p bs) : as = bs := by
  induction ha generalizing bs with
  | nil => cases hb; rfl
  | cons _ ih =>
    cases hb with
    | cons hb => rw [ih hb]

/-- The chain from the `i`-th entry of a chain is the rest of it from there. -/
theorem Linked.drop (h : m.Linked p as) (i : Nat) (hi : i < as.length) :
    m.Linked (some as[i]) (as.drop i) := by
  induction h generalizing i with
  | nil => simp at hi
  | cons h ih =>
    cases i with
    | zero => exact .cons h
    | succ i => simpa using ih i (by simpa using hi)

theorem Linked.nodup (h : m.Linked p as) : as.Nodup := by
  induction h with
  | nil => exact List.nodup_nil
  | @cons a as h ih =>
    refine List.nodup_cons.2 ⟨fun ha => ?_, ih⟩
    obtain ⟨i, hi, hai⟩ := List.getElem_of_mem ha
    -- the chain from the second visit of `a` is both a part of `as` and all of `a :: as`
    have hrest := h.drop i hi
    rw [hai] at hrest
    have hlen := congrArg List.length (hrest.unique (.cons h))
    simp only [List.length_drop, List.length_cons] at hlen
    omega

/-- A chain depends on the links of its own entries only. -/
theorem Linked.congr {m' : Heap κ ν} (h : m.Linked p as)
    (hm : ∀ a ∈ as, (m' a).next = (m a).next) : m'.Linked p as := by
  induction h with
  | nil => exact .nil
  | @cons a as _ ih =>
    refine .cons ?_
    rw [hm a List.mem_cons_self]
    exact ih fun b hb => hm b (List.mem_cons_of_mem a hb)

end Chains

/-! ## Chains laid out from pairs -/

section Lay

variable (blank : κ × ν) (pairs : Chain κ ν)

theorem lay_of_lt {a : Nat} (ha : a < pairs.length) :
    lay blank pairs a =
      ⟨pairs[a].1, pairs[a].2, if a + 1 < pairs.length then some (a + 1) else none⟩ := by
  simp [lay, List.getElem?_eq_getElem ha]

private theorem linked_lay_from : ∀ n i, i + n = pairs.length →
    (lay blank pairs).Linked (if i < pairs.length then some i else none) (List.range' i n)
  | 0, i, h => by
    rw [if_neg (by omega)]
    exact .nil
  | n + 1, i, h => by
    rw [if_pos (by omega), List.range'_succ]
    refine .cons ?_
    rw [lay_of_lt blank pairs (by omega)]
    exact linked_lay_from n (i + 1) (by omega)

/-- The pairs laid out are linked in their order. -/
theorem linked_lay : (lay blank pairs).Linked (layHead pairs) (List.range pairs.length) := by
  have hhead : layHead pairs = if 0 < pairs.length then some 0 else none := by
    cases pairs <;> simp [layHead]
  rw [hhead, List.range_eq_range']
  exact linked_lay_from blank pairs pairs.length 0 (by omega)

/-- Reading the entries laid out gives the pairs back. -/
theorem map_range_lay :
    (List.range pairs.length).map (fun a => ((lay blank pairs a).key, (lay blank pairs a).value)) =
      pairs := by
  apply List.ext_getElem (by simp)
  intro i hi _
  simp only [List.getElem_map, List.getElem_range]
  rw [lay_of_lt blank pairs (by simpa using hi)]

theorem find?_lay [BEq κ] (k : κ) :
    ((List.range pairs.length).find? fun a => (lay blank pairs a).key == k).map
        (lay blank pairs · |>.value) =
      (pairs.find? (·.1 == k)).map (·.2) := by
  conv => rhs; rw [← map_range_lay blank pairs]
  rw [List.find?_map, Option.map_map]
  rfl

theorem findIdx_lay [BEq κ] (k : κ) :
    (List.range pairs.length).findIdx (fun a => (lay blank pairs a).key == k) =
      pairs.findIdx (·.1 == k) := by
  conv => rhs; rw [← map_range_lay blank pairs]
  rw [List.findIdx_map]
  rfl

end Lay

/-! ## The walk, the count and the search -/

section Walk

variable {m : Heap κ ν} {p : Option Nat} {as : List Nat}

theorem walk_eq_take (h : m.Linked p as) (fuel : Nat) : m.walk fuel p = as.take fuel := by
  induction h generalizing fuel with
  | nil => cases fuel <;> rfl
  | cons _ ih =>
    cases fuel with
    | zero => rfl
    | succ fuel => simp [walk, ih]

theorem count_eq (h : m.Linked p as) (fuel : Nat) : m.count fuel p = min fuel as.length := by
  simp [count, walk_eq_take h]

/-- A search along entries finds the first with an equal key, at its position past `link`. -/
theorem scan_eq [BEq κ] (m : Heap κ ν) (k : κ) (es : List Nat) (link : Nat) :
    m.scan k es link =
      (es.find? fun a => (m a).key == k, link + es.findIdx fun a => (m a).key == k) := by
  induction es generalizing link with
  | nil => simp [scan]
  | cons a rest ih =>
    by_cases hk : ((m a).key == k) = true
    · simp [scan, hk, List.findIdx_cons]
    · simp only [scan, hk, Bool.false_eq_true, if_false, ih, List.find?_cons, List.findIdx_cons,
        cond_false, Prod.mk.injEq, true_and]
      omega

theorem find_eq [BEq κ] (h : m.Linked p as) (k : κ) {fuel : Nat} (hf : as.length ≤ fuel) :
    m.find k fuel p =
      (as.find? fun a => (m a).key == k, as.findIdx fun a => (m a).key == k) := by
  rw [find, walk_eq_take h, List.take_of_length_le hf, scan_eq, Nat.zero_add]

theorem last_eq_getLast {a : Nat} (h : m.Linked (some a) as) (hne : as ≠ []) {fuel : Nat}
    (hf : as.length ≤ fuel + 1) : m.last fuel a = as.getLast hne := by
  induction as generalizing a fuel with
  | nil => exact absurd rfl hne
  | cons b rest ih =>
    obtain ⟨hab, h⟩ := linked_cons_iff.1 h
    obtain rfl : a = b := Option.some.inj hab
    cases rest with
    | nil =>
      have hnext : (m a).next = none := linked_nil_iff.1 h
      cases fuel <;> simp [last, hnext]
    | cons c rest =>
      obtain ⟨fuel, rfl⟩ : ∃ f, fuel = f + 1 := ⟨fuel - 1, by simp at hf; omega⟩
      have hnext : (m a).next = some c := (linked_cons_iff.1 h).1
      rw [last, hnext, List.getLast_cons (List.cons_ne_nil c rest)]
      exact ih (hnext ▸ h) (List.cons_ne_nil c rest) (by simpa using hf)

end Walk

/-- What the routines give on the chain from `p` linking `as`, with the key `k` searched for,
once they may make at least as many passes as there are entries: the walk meets the entries in
order (a shorter walk meets the first ones), the count is their number, the search finds the
first entry whose key equals `k` together with its link, or no entry at the link past the last,
and the walk to the tail from the head stops at the last entry. -/
structure WalksAsListed [BEq κ] (m : Heap κ ν) (p : Option Nat) (as : List Nat) (k : κ) :
    Prop where
  walk : ∀ fuel, m.walk fuel p = as.take fuel
  count : ∀ fuel, as.length ≤ fuel → m.count fuel p = as.length
  first : ∀ fuel, as.length ≤ fuel → ∀ j (hj : j < as.length),
    ((m as[j]).key == k) = true → (∀ i (hi : i < j), ((m as[i]).key == k) = false) →
      m.find k fuel p = (some as[j], j)
  missing : ∀ fuel, as.length ≤ fuel → (∀ a ∈ as, ((m a).key == k) = false) →
    m.find k fuel p = (none, as.length)
  tail : ∀ fuel, as.length ≤ fuel → ∀ hne : as ≠ [],
    m.last fuel (as.head hne) = as.getLast hne

/-- **The routines on a chain.** On every chain that ends, whatever its keys, the walk, the
count, the search and the walk to the tail give what the list of its entries says. -/
theorem walks_as_listed [BEq κ] {m : Heap κ ν} {p : Option Nat} {as : List Nat}
    (h : m.Linked p as) (k : κ) : m.WalksAsListed p as k where
  walk := walk_eq_take h
  count fuel hf := by rw [count_eq h, Nat.min_eq_right hf]
  first fuel hf j hj hk hfirst := by
    rw [find_eq h k hf]
    have hidx : (as.findIdx fun a => (m a).key == k) = j := (List.findIdx_eq hj).2 ⟨hk, hfirst⟩
    have hfind : (as.find? fun a => (m a).key == k) = some as[j] :=
      List.find?_eq_some_iff_getElem.2 ⟨hk, j, hj, rfl, fun i hi => by simp [hfirst i hi]⟩
    rw [hidx, hfind]
  missing fuel hf hk := by
    rw [find_eq h k hf, List.findIdx_eq_length.2 hk,
      List.find?_eq_none.2 fun a ha => by simp [hk a ha]]
  tail fuel hf hne := by
    cases h with
    | nil => exact absurd rfl hne
    | cons h' => exact last_eq_getLast (.cons h') hne (by omega)

/-- Three pairs laid out, the first and the last with the same key. -/
theorem repeated_key_walks_as_listed :
    (lay (Datum.str .empty, Datum.str .empty) ([(.str (.ofString "a"), .str (.ofString "1")),
      (.str (.ofString "b"), .str (.ofString "2")),
      (.str (.ofString "a"), .str (.ofString "3"))] : Chain Datum Datum)).Linked
      (some 0) [0, 1, 2] ∧
    (lay (Datum.str .empty, Datum.str .empty) ([(.str (.ofString "a"), .str (.ofString "1")),
      (.str (.ofString "b"), .str (.ofString "2")),
      (.str (.ofString "a"), .str (.ofString "3"))] : Chain Datum Datum)).WalksAsListed
      (some 0) [0, 1, 2] (.str (.ofString "a")) :=
  ⟨linked_lay _ _, walks_as_listed (linked_lay _ _) _⟩

/-! ## Unlinking -/

/-- The heap with each of the entries `as` blank and linked to nothing. -/
def clear (m : Heap κ ν) (blank : κ × ν) (as : List Nat) : Heap κ ν :=
  fun b => if b ∈ as then ⟨blank.1, blank.2, none⟩ else m b

theorem clear_nil (m : Heap κ ν) (blank : κ × ν) : m.clear blank [] = m := by
  funext b
  simp [clear]

/-- Blanking an entry and then others is blanking them all. -/
theorem clear_write (m : Heap κ ν) (blank : κ × ν) {a : Nat} {bs : List Nat} (ha : a ∉ bs) :
    (m.write a ⟨blank.1, blank.2, none⟩).clear blank bs = m.clear blank (a :: bs) := by
  funext b
  by_cases hb : b = a
  · subst hb
    simp [clear, ha]
  · simp [clear, hb]

/-- Each entry blanked, read back: the blank key and value, linked to nothing. -/
theorem detached_clear (m : Heap κ ν) (blank : κ × ν) (as : List Nat) :
    as.map (fun a => (⟨(m.clear blank as a).key, (m.clear blank as a).value,
      (m.clear blank as a).next.isNone⟩ : Chain.Detached κ ν)) =
      as.map fun _ => ⟨blank.1, blank.2, true⟩ :=
  List.map_congr_left fun a ha => by simp [clear, ha]

/-- After `fuel` passes the unlinking loop has blanked the first `fuel` entries of the chain,
counting each, and stands on the next one, if there is one. -/
theorem run_eq {m : Heap κ ν} {p : Option Nat} {as : List Nat} (h : m.Linked p as)
    (blank : κ × ν) (fuel count : Nat) :
    Unlinking.run blank fuel ⟨m, p, count⟩ =
      ⟨m.clear blank (as.take fuel), as[fuel]?, count + min fuel as.length⟩ := by
  induction as generalizing m p fuel count with
  | nil =>
    cases h
    cases fuel <;> simp [Unlinking.run, clear_nil]
  | cons a as ih =>
    cases h with
    | cons h =>
      cases fuel with
      | zero => simp [Unlinking.run, clear_nil]
      | succ fuel =>
        have ha : a ∉ as := (List.nodup_cons.1 (Linked.cons h).nodup).1
        -- the pass writes `a` only, which the rest of the chain does not hold
        have hrest : (m.write a ⟨blank.1, blank.2, none⟩).Linked (m a).next as :=
          h.congr fun b hb => by
            have hba : b ≠ a := by
              rintro rfl
              exact ha hb
            rw [write_of_ne _ _ hba]
        simp only [Unlinking.run, Unlinking.pass_eq]
        rw [ih hrest, List.take_succ_cons,
          clear_write m blank (fun hat => ha (List.mem_of_mem_take hat))]
        simp only [List.getElem?_cons_succ, List.length_cons, Unlinking.mk.injEq, true_and]
        omega

/-- Once it may make as many passes as the chain has entries, the unlinking loop has blanked
them all, counting each, and stands on no entry. -/
theorem run_of_length_le {m : Heap κ ν} {p : Option Nat} {as : List Nat} (h : m.Linked p as)
    (blank : κ × ν) {fuel : Nat} (hf : as.length ≤ fuel) (count : Nat) :
    Unlinking.run blank fuel ⟨m, p, count⟩ = ⟨m.clear blank as, none, count + as.length⟩ := by
  rw [run_eq h, List.take_of_length_le hf, List.getElem?_eq_none hf, Nat.min_eq_right hf]

/-- What the unlinking loop does on the chain from `p` linking `as`: it stands on an entry after
each of its first `as.length` passes and on none from then on, and once it has stopped it has
released as many entries as the chain has, each left with the `blank` key and value and linked to
nothing, while every other entry of the heap is as it was. -/
structure UnlinksAll (m : Heap κ ν) (p : Option Nat) (as : List Nat) (blank : κ × ν) :
    Prop where
  stops : ∀ fuel, (Unlinking.run blank fuel ⟨m, p, 0⟩).entry = none ↔ as.length ≤ fuel
  count : ∀ fuel, as.length ≤ fuel →
    (Unlinking.run blank fuel ⟨m, p, 0⟩).count = as.length
  blanked : ∀ fuel, as.length ≤ fuel → ∀ a ∈ as,
    (Unlinking.run blank fuel ⟨m, p, 0⟩).heap a = ⟨blank.1, blank.2, none⟩
  untouched : ∀ fuel, as.length ≤ fuel → ∀ a, a ∉ as →
    (Unlinking.run blank fuel ⟨m, p, 0⟩).heap a = m a

/-- **Unlinking a chain.** On every chain that ends, of entries that are therefore distinct,
the unlinking loop runs for exactly as many passes as there are entries, releases that many,
leaves each blank and alone and touches no other entry; from no entry at all it releases none. -/
theorem unlinks_every_entry {m : Heap κ ν} {p : Option Nat} {as : List Nat}
    (h : m.Linked p as) (blank : κ × ν) :
    m.UnlinksAll p as blank ∧ as.Nodup ∧
      ∀ (m' : Heap κ ν) fuel, (Unlinking.run blank fuel ⟨m', none, 0⟩).count = 0 := by
  refine ⟨⟨fun fuel => ?_, fun fuel hf => ?_, fun fuel hf a ha => ?_, fun fuel hf a ha => ?_⟩,
    h.nodup, fun m' fuel => ?_⟩
  · rw [run_eq h]
    exact List.getElem?_eq_none_iff
  · rw [run_of_length_le h blank hf, Nat.zero_add]
  · rw [run_of_length_le h blank hf]
    simp [clear, ha]
  · rw [run_of_length_le h blank hf]
    simp [clear, ha]
  · rw [run_eq .nil]
    simp

/-- Three pairs laid out, unlinked with empty texts. -/
theorem three_entries_unlink_every_entry :
    (lay (Datum.str .empty, Datum.str .empty) ([(.str (.ofString "a"), .str (.ofString "1")),
      (.str (.ofString "b"), .str (.ofString "2")),
      (.str (.ofString "a"), .str (.ofString "3"))] : Chain Datum Datum)).Linked
      (some 0) [0, 1, 2] ∧
    (lay (Datum.str .empty, Datum.str .empty) ([(.str (.ofString "a"), .str (.ofString "1")),
      (.str (.ofString "b"), .str (.ofString "2")),
      (.str (.ofString "a"), .str (.ofString "3"))] : Chain Datum Datum)).UnlinksAll
      (some 0) [0, 1, 2] (.str .empty, .str .empty) ∧
    [0, 1, 2].Nodup ∧
    ∀ (m' : Heap Datum Datum) fuel,
      (Unlinking.run (.str .empty, .str .empty) fuel ⟨m', none, 0⟩).count = 0 :=
  ⟨linked_lay _ _, unlinks_every_entry (linked_lay _ _) _⟩

/-- The loop on a chain laid out from pairs does what unlinking the pairs says: it releases one
entry per pair and leaves each blank and alone. -/
theorem onChain_eq_unlink (blank : κ × ν) (pairs : Chain κ ν) :
    Unlinking.onChain blank pairs = Chain.unlink blank pairs := by
  have hrun := run_of_length_le (linked_lay blank pairs) blank (Nat.le_of_eq List.length_range) 0
  rw [List.length_range, Nat.zero_add] at hrun
  simp only [Unlinking.onChain, hrun, Chain.unlink]
  rw [detached_clear, List.map_const', List.map_const', List.length_range]

/-! ## Questions about a chain of pairs -/

section Questions

variable (pairs : Chain Datum Datum)

theorem answer_length : ChainQuery.length.answer pairs = .ok (.length pairs.length) := by
  simp [ChainQuery.answer, count_eq (linked_lay _ pairs)]

theorem answer_iter : ChainQuery.iter.answer pairs = .ok (.entries pairs) := by
  simp only [ChainQuery.answer, walk_eq_take (linked_lay _ pairs), List.take_range, Nat.min_self,
    map_range_lay]

/-- The search in the laid-out chain answers as the search in the list of pairs. -/
theorem answer_find (key : Datum) :
    (ChainQuery.find key).answer pairs =
      .ok (.search ((Chain.locate key pairs).map (·.2)) (Chain.linkOf key pairs)) := by
  have hfind := find_eq (linked_lay (.str .empty, .str .empty) pairs) key
    (show (List.range pairs.length).length ≤ pairs.length by simp)
  simp only [ChainQuery.answer, hfind, find?_lay, findIdx_lay, Chain.locate_map_snd,
    Chain.linkOf_eq_findIdx]

/-- The tail of the laid-out chain is the last pair. -/
theorem answer_tail :
    ChainQuery.tail.answer pairs =
      match Chain.tail? pairs with
      | some e => .ok (.tail e)
      | none => .error .noTail := by
  cases pairs with
  | nil => rfl
  | cons e rest =>
    have hne : List.range (e :: rest).length ≠ [] := by simp
    have hlast := last_eq_getLast (linked_lay (.str .empty, .str .empty) (e :: rest)) hne
      (show (List.range (e :: rest).length).length ≤ (e :: rest).length + 1 by simp)
    rw [List.getLast_range] at hlast
    simp only [ChainQuery.answer, layHead, List.isEmpty_cons, Bool.false_eq_true, if_false, hlast,
      Chain.tail?, List.getLast?_eq_some_getLast (List.cons_ne_nil e rest), List.getLast_eq_getElem]
    rw [lay_of_lt _ _ (by simp)]

/-- Unlinking the laid-out chain releases as many entries as there are pairs, each blank and
alone. -/
theorem answer_unlink :
    ChainQuery.unlink.answer pairs =
      .ok (.unlinked (Chain.unlink (.str .empty, .str .empty) pairs).1
        (Chain.unlink (.str .empty, .str .empty) pairs).2) := by
  simp only [ChainQuery.answer, onChain_eq_unlink]

end Questions

end Heap

end Chaining
