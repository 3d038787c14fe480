import Chaining.Proofs.Copy

/-!
# Stores in either order

A store that goes through leaves the table as one pure function of the table, the key and the
value: the key's chain with the value stored (`Chain.store`), and the count raised for a new key
(`Table.stored`). Two stores of distinct keys therefore commute, answer by answer and state by
state, with one exception: two new keys of one bucket end its chain in the order they were
stored. A store repeated with the same value changes nothing.

* `Chain.store`, `Table.stored`, `Table.storeEvent`: what a store that goes through leaves and
  reports; `set_eq_ok_stored` ties them to `Table.set`.
* `Row.place_place_of_ne`, `Row.modify_modify_of_ne`, `Row.modify_modify_self`: writes to two
  buckets of a row commute, and two writes to one bucket compose.
* `Chain.store_comm`, `Table.stored_comm`: stores of distinct keys commute, unless both keys are
  new and share a bucket.
* `Session.store_store`, `step_set_eq`: the session after a store step.
* `Session.StoresCommute`, `reachable_stores_commute`: two store steps in either order, and one
  store step twice, on a table of a reachable session.
-/

namespace Chaining

/-- The step that stores `value` under `key` into the table named `name`, both as a caller passes
them. -/
def Step.set (name : Text) (key value : Datum) : Step := ⟨some name, .table (.set key value)⟩

theorem Text.eq_ofChars_of_chars? {t : Text} {cs : List Char} (h : t.chars? = .ok cs) :
    t = ofChars cs := by
  obtain ⟨ps⟩ := t
  unfold chars? at h
  split at h
  · cases h
  · rename_i hn
    rw [Except.ok.injEq] at h
    subst h
    rw [List.findIdx?_eq_none_iff] at hn
    simp only [ofChars, Text.mk.injEq]
    induction ps with
    | nil => rfl
    | cons p rest ih =>
      have hrest := ih fun q hq => hn q (List.mem_cons_of_mem _ hq)
      cases p with
      | scalar c =>
        simp only [List.filterMap_cons, CodePoint.char?_scalar, List.map_cons]
        rw [← hrest]
      | surrogate o => simp [CodePoint.isSurrogate] at hn

/-- The one datum that stands for a key is the key's text. -/
theorem Key.eq_of_check {d : Datum} {k : Key} (h : Key.check d = .ok k) : d = .str k.text := by
  cases d with
  | str t =>
    simp only [Key.check] at h
    split at h
    · cases h
    · cases h
    · rename_i c cs hcs
      rw [Except.ok.injEq] at h
      subst h
      rw [Text.eq_ofChars_of_chars? hcs]
      rfl
  | _ => simp [Key.check] at h

/-! ## Rows -/

namespace Row

variable {κ ν : Type}

theorem place_cons_of_lt {i m : Nat} (h : m < i) (c e : Chain κ ν)
    (rest : List (Nat × Chain κ ν)) : place i c ((m, e) :: rest) = (m, e) :: place i c rest := by
  simp [place, h]

theorem place_cons_self (i : Nat) (c e : Chain κ ν) (rest : List (Nat × Chain κ ν)) :
    place i c ((i, e) :: rest) = (i, c) :: rest := by
  simp [place]

theorem place_cons_of_gt {i m : Nat} (h : i < m) (c e : Chain κ ν)
    (rest : List (Nat × Chain κ ν)) : place i c ((m, e) :: rest) = (i, c) :: (m, e) :: rest := by
  simp [place, Nat.not_lt.2 h.le, Nat.ne_of_gt h]

/-- Giving two different buckets their chains, in either order, keeps the same buckets. -/
theorem place_place_of_ne {i j : Nat} (hij : i ≠ j) (c d : Chain κ ν) :
    ∀ l : List (Nat × Chain κ ν), place j d (place i c l) = place i c (place j d l)
  | [] => by
    rcases Nat.lt_or_gt_of_ne hij with h | h <;>
      simp (disch := omega) only [place, place_cons_of_lt, place_cons_of_gt]
  | (m, e) :: rest => by
    have ih := place_place_of_ne hij c d rest
    -- each of the two indices lies below, at or above the head's
    rcases lt_trichotomy m i with hi | rfl | hi <;> rcases lt_trichotomy m j with hj | rfl | hj
    all_goals
      rcases Nat.lt_or_gt_of_ne hij with h | h <;>
        simp (disch := omega) only [place_cons_of_lt, place_cons_self, place_cons_of_gt, ih]

theorem place_place_self (i : Nat) (c d : Chain κ ν) :
    ∀ l : List (Nat × Chain κ ν), place i d (place i c l) = place i d l
  | [] => by simp [place]
  | (m, e) :: rest => by
    rcases lt_trichotomy m i with h | rfl | h
    · simp (disch := omega) only [place_cons_of_lt, place_place_self i c d rest]
    · simp only [place_cons_self]
    · simp (disch := omega) only [place_cons_of_gt, place_cons_self]

theorem modify_congr (r : Row κ ν) (i : Nat) (f g : Chain κ ν → Chain κ ν)
    (h : f (r.get i) = g (r.get i)) : r.modify i f = r.modify i g := by
  rw [modify, modify, h]

theorem modify_modify_of_ne (r : Row κ ν) {i j : Nat} (hij : i ≠ j)
    (f g : Chain κ ν → Chain κ ν) : (r.modify i f).modify j g = (r.modify j g).modify i f := by
  rw [modify, modify, modify, modify, get_set, if_neg (Ne.symm hij), get_set, if_neg hij]
  exact congrArg Row.mk (place_place_of_ne hij _ _ r.kept)

theorem modify_modify_self (r : Row κ ν) (i : Nat) (f g : Chain κ ν → Chain κ ν) :
    (r.modify i f).modify i g = r.modify i (fun c => g (f c)) := by
  rw [modify, modify, modify, get_set, if_pos rfl]
  exact congrArg Row.mk (place_place_self i _ _ r.kept)

end Row

/-! ## Chains -/

namespace Chain

variable {κ ν : Type} [BEq κ]

/-- The chain with `v` stored under `k`: the first entry with the key takes the value where it
stands, and a chain without the key gets a new entry after its tail. -/
def store (k : κ) (v : ν) (c : Chain κ ν) : Chain κ ν :=
  match c.locate k with
  | some (l, _) => c.overwrite l v
  | none => c.append k v

theorem store_nil (k : κ) (v : ν) : store k v ([] : Chain κ ν) = [(k, v)] := rfl

theorem store_cons (k : κ) (v : ν) (j : κ) (u : ν) (rest : Chain κ ν) :
    store k v ((j, u) :: rest) = if j == k then (j, v) :: rest else (j, u) :: store k v rest := by
  by_cases h : (j == k) = true
  · simp [store, locate, h, overwrite]
  · simp only [store, locate, h, Bool.false_eq_true, if_false]
    cases locate k rest <;> simp [overwrite, append]

variable [LawfulBEq κ]

/-- Storing under one key moves no entry of another: a search for it finds what it found. -/
theorem locate_store_of_ne {k k' : κ} (h : k ≠ k') (v : ν) (c : Chain κ ν) :
    locate k' (store k v c) = locate k' c := by
  induction c with
  | nil => simp [store_nil, locate, h]
  | cons e rest ih =>
    obtain ⟨j, u⟩ := e
    rw [store_cons]
    by_cases hj : j = k
    · subst hj
      simp [locate, h]
    · simp [locate, hj, ih]

theorem store_of_not_mem {k : κ} {c : Chain κ ν} (h : k ∉ c.map (·.1)) (v : ν) :
    store k v c = c ++ [(k, v)] := by
  rw [store, (locate_eq_none_iff k c).2 h]
  rfl

/-- Stores of two distinct keys, one of which the chain holds, commute. -/
theorem store_comm {k₁ k₂ : κ} (hne : k₁ ≠ k₂) (v₁ v₂ : ν) {c : Chain κ ν}
    (hmem : k₁ ∈ c.map (·.1) ∨ k₂ ∈ c.map (·.1)) :
    store k₂ v₂ (store k₁ v₁ c) = store k₁ v₁ (store k₂ v₂ c) := by
  induction c with
  | nil => simp at hmem
  | cons e rest ih =>
    obtain ⟨j, u⟩ := e
    by_cases h₁ : j = k₁
    · subst h₁
      simp [store_cons, hne]
    · by_cases h₂ : j = k₂
      · subst h₂
        simp [store_cons, h₁]
      · have hrest : k₁ ∈ rest.map (·.1) ∨ k₂ ∈ rest.map (·.1) := by
          simpa [Ne.symm h₁, Ne.symm h₂] using hmem
        simp [store_cons, h₁, h₂, ih hrest]

end Chain

/-! ## Tables -/

namespace Table

/-- The table with `v` stored under `k`, as a store that goes through leaves it: the key's bucket
holds its chain with the value stored, and the count goes up by one for a key it lacked. -/
def stored (k : Key) (v : Text) (t : Table) : Table :=
  { t with buckets := t.buckets.modify (t.bucketOf k) (Chain.store k v),
           count := if (t.find k).isSome then t.count else t.count + 1 }

/-- The event of a store of `v` under `k` that goes through: an overwrite at the key's link, or an
addition at the link that is the length of the key's chain. -/
def storeEvent (k : Key) (v : Text) (t : Table) : TraceEvent :=
  match t.find k with
  | some (l, _) => ⟨.overwriting, t.bucketOf k, l, k, v⟩
  | none => ⟨.adding, t.bucketOf k, (t.chainAt (t.bucketOf k)).length, k, v⟩

variable {t : Table} {mem : Memory} {k k₁ k₂ : Key} {v v₁ v₂ : Text}

theorem ext {a b : Table} (hshape : a.shape = b.shape) (hbuckets : a.buckets = b.buckets)
    (hcount : a.count = b.count) (hfreed : a.freed = b.freed) : a = b := by
  cases a
  cases b
  simp_all

theorem buckets_stored (k : Key) (v : Text) (t : Table) :
    (t.stored k v).buckets = t.buckets.modify (t.bucketOf k) (Chain.store k v) := rfl

theorem count_stored (k : Key) (v : Text) (t : Table) :
    (t.stored k v).count = if (t.find k).isSome then t.count else t.count + 1 := rfl

theorem bucketOf_stored (k : Key) (v : Text) (t : Table) (k' : Key) :
    (t.stored k v).bucketOf k' = t.bucketOf k' := rfl

/-- A store that goes through leaves the stored table and reports the store's event. -/
theorem set_eq_ok_stored {t' : Table} {ev : TraceEvent} (hs : t.set mem k v = .ok (t', ev)) :
    t' = t.stored k v ∧ ev = t.storeEvent k v := by
  obtain ⟨-, ⟨i, w, hf, rfl, rfl⟩ | ⟨hf, -, rfl, rfl⟩⟩ := set_eq_ok hs
  · have hloc : (t.buckets.get (t.bucketOf k)).locate k = some (i, w) := hf
    have hstore : Chain.store k v (t.buckets.get (t.bucketOf k)) =
        (t.buckets.get (t.bucketOf k)).overwrite i v := by
      simp only [Chain.store, hloc]
    refine ⟨?_, by simp [storeEvent, hf]⟩
    simp only [stored, hf, Option.isSome_some, if_true]
    rw [Row.modify_congr t.buckets (t.bucketOf k) (Chain.store k v) (·.overwrite i v) hstore]
  · have hloc : (t.buckets.get (t.bucketOf k)).locate k = none := hf
    have hstore : Chain.store k v (t.buckets.get (t.bucketOf k)) =
        (t.buckets.get (t.bucketOf k)).append k v := by
      simp only [Chain.store, hloc]
    refine ⟨?_, by simp [storeEvent, hf]⟩
    simp only [stored, hf, Option.isSome_none, Bool.false_eq_true, if_false]
    rw [Row.modify_congr t.buckets (t.bucketOf k) (Chain.store k v) (·.append k v) hstore]

theorem storeEvent_action (k : Key) (v : Text) (t : Table) :
    (t.storeEvent k v).action = (t.find k).elim .adding fun _ => .overwriting := by
  unfold storeEvent
  split <;> simp_all

theorem chainAt_stored (k : Key) (v : Text) (t : Table) (i : Nat) :
    (t.stored k v).chainAt i = if i = t.bucketOf k then (t.chainAt i).store k v else t.chainAt i := by
  rw [stored, chainAt_modify]
  split <;> simp_all

/-- A store under one key moves no entry of another. -/
theorem find_stored_of_ne (h : k ≠ k') (v : Text) (t : Table) :
    (t.stored k v).find k' = t.find k' := by
  rw [stored, find_modify]
  split
  · rename_i hb
    rw [Chain.locate_store_of_ne h, ← hb]
    rfl
  · rfl

/-- Stores of two distinct keys commute, unless both keys are new and share a bucket. -/
theorem stored_comm (hne : k₁ ≠ k₂)
    (hx : ¬ (t.find k₁ = none ∧ t.find k₂ = none ∧ t.bucketOf k₁ = t.bucketOf k₂)) :
    (t.stored k₁ v₁).stored k₂ v₂ = (t.stored k₂ v₂).stored k₁ v₁ := by
  refine ext rfl ?_ ?_ rfl
  · rw [buckets_stored, buckets_stored, buckets_stored, buckets_stored, bucketOf_stored,
      bucketOf_stored]
    by_cases hb : t.bucketOf k₁ = t.bucketOf k₂
    · rw [hb, Row.modify_modify_self, Row.modify_modify_self]
      refine Row.modify_congr _ _ _ _ (Chain.store_comm hne v₁ v₂ ?_)
      have hsome : (t.find k₁).isSome ∨ (t.find k₂).isSome := by
        by_contra hnone
        simp only [not_or, Bool.not_eq_true, Option.isSome_eq_false_iff, Option.isNone_iff_eq_none]
          at hnone
        exact hx ⟨hnone.1, hnone.2, hb⟩
      simp only [find, chainAt, Chain.locate_isSome_iff, beq_iff_eq] at hsome
      rw [hb] at hsome
      simpa using hsome
    · exact Row.modify_modify_of_ne _ hb _ _
  · simp only [count_stored, find_stored_of_ne hne, find_stored_of_ne (Ne.symm hne)]
    split_ifs <;> omega

/-- Two new keys of one bucket, stored one after the other, end the bucket's chain in the order
they were stored. -/
theorem chainAt_stored_stored_of_new (hne : k₁ ≠ k₂) (h₁ : t.find k₁ = none)
    (h₂ : t.find k₂ = none) (hb : t.bucketOf k₁ = t.bucketOf k₂) :
    ((t.stored k₁ v₁).stored k₂ v₂).chainAt (t.bucketOf k₁) =
      t.chainAt (t.bucketOf k₁) ++ [(k₁, v₁), (k₂, v₂)] := by
  have hn₁ : k₁ ∉ (t.chainAt (t.bucketOf k₁)).map (·.1) :=
    (Chain.locate_eq_none_iff _ _).1 h₁
  have hn₂ : k₂ ∉ (t.chainAt (t.bucketOf k₁)).map (·.1) :=
    (Chain.locate_eq_none_iff _ _).1 (hb ▸ h₂)
  have hn₂' : k₂ ∉ (t.chainAt (t.bucketOf k₁) ++ [(k₁, v₁)]).map (·.1) := by
    simpa [Ne.symm hne] using hn₂
  rw [chainAt_stored, if_pos (show t.bucketOf k₁ = (t.stored k₁ v₁).bucketOf k₂ from hb),
    chainAt_stored, if_pos rfl, Chain.store_of_not_mem hn₁, Chain.store_of_not_mem hn₂']
  simp

theorem chainAt_stored_stored_of_ne {i : Nat} (h₁ : i ≠ t.bucketOf k₁) (h₂ : i ≠ t.bucketOf k₂) :
    ((t.stored k₁ v₁).stored k₂ v₂).chainAt i = t.chainAt i := by
  rw [chainAt_stored, if_neg (show i ≠ (t.stored k₁ v₁).bucketOf k₂ from h₂), chainAt_stored,
    if_neg h₁]

theorem mem_entries_of_lookup {k : Key} {v : Text} (h : t.lookup k = some v) :
    (k, v) ∈ t.entries := by
  simp only [lookup, Option.map_eq_some_iff] at h
  obtain ⟨e, he, rfl⟩ := h
  have hk : e.1 = k := by simpa using List.find?_some he
  rw [← hk]
  exact List.mem_of_find?_eq_some he

end Table

/-! ## Store steps -/

namespace Session

variable {s : Session}

theorem store_tracing (s : Session) (name : Text) (t : Table) :
    (s.store name t).tracing = s.tracing := by
  unfold store
  split <;> rfl

/-- Storing a table under a name twice is storing the second. -/
theorem store_store (s : Session) (name : Text) (t t' : Table) :
    (s.store name t).store name t' = s.store name t' := by
  unfold store
  by_cases hany : s.tables.any (·.1 == name)
  · have hany' : (s.tables.map fun e => if e.1 == name then (name, t) else e).any (·.1 == name) := by
      obtain ⟨e, he, hen⟩ := List.any_eq_true.1 hany
      exact List.any_eq_true.2 ⟨(name, t), List.mem_map.2 ⟨e, he, by simp [hen]⟩, by simp⟩
    simp only [hany, hany', if_true, List.map_map]
    congr 1
    refine List.map_congr_left fun e _ => ?_
    by_cases he : e.1 = name <;> simp [he]
  · have hany' : (s.tables ++ [(name, t)]).any (·.1 == name) := by simp
    simp only [hany, hany', Bool.false_eq_true, if_true, if_false]
    congr 1
    have hold : (s.tables.map fun e => if e.1 == name then (name, t') else e) = s.tables := by
      conv_rhs => rw [← List.map_id s.tables]
      refine List.map_congr_left fun e he => ?_
      have hen : (e.1 == name) = false := by
        by_contra h
        exact hany (List.any_eq_true.2 ⟨e, he, by simpa using h⟩)
      simp [hen]
    rw [List.map_append, hold]
    simp

/-- A store step whose store goes through leaves the stored table under the name, answers
whether the key was new, and traces the store's event. -/
theorem step_set_eq {name : Text} {t : Table} (ht : s.table? name = some t) {key value : Datum}
    {k : Key} {v : Text} (hk : Key.check key = .ok k) (hv : value = .str v) {t' : Table}
    {ev : TraceEvent} (hs : t.set s.memory k v = .ok (t', ev)) :
    s.step (Step.set name key value) =
      (s.store name t', ⟨.ok (.flag (ev.action == .adding)),
        if s.tracing then [ev.line] else [], some (t'.count, t'.freed)⟩) := by
  have hlive : liveKey t key = .ok k := liveKey_eq_ok.2 ⟨(Table.set_eq_ok hs).1, hk⟩
  have hc : s.command t (.set key value) = ⟨some t', .ok (.flag (ev.action == .adding)), [ev]⟩ := by
    subst hv
    simp [command, hlive, hs]
  rw [Step.set, step_table, onTable_of_table? ht (fun _ h => by cases h), hc]
  simp [table?_store]

/-- A store step that is answered went through: its key and value are a key and a text, and the
table's store of them leaves the stored table. -/
theorem step_set_reply_ok {name : Text} {t : Table} (ht : s.table? name = some t)
    {key value : Datum} {r : Reply} (h : (s.step (Step.set name key value)).2.reply = .ok r) :
    ∃ k v, Key.check key = .ok k ∧ value = .str v ∧
      t.set s.memory k v = .ok (t.stored k v, t.storeEvent k v) := by
  rw [Step.set, (step_on_table ht fun _ h => by cases h).1] at h
  obtain ⟨k, v, t', ev, hk, hv, hs, -⟩ := command_set_reply_ok h
  obtain ⟨rfl, rfl⟩ := Table.set_eq_ok_stored hs
  exact ⟨k, v, hk, hv, hs⟩

/-- Two store steps that both go through: the stores of their keys and values go through one after
the other, the steps answer whether each key was new, and the session keeps the table both stores
leave. -/
theorem runFrom_set_pair {name : Text} {t : Table} (ht : s.table? name = some t)
    {key₁ value₁ key₂ value₂ : Datum}
    (hok : ∀ a ∈ runFrom s [Step.set name key₁ value₁, Step.set name key₂ value₂],
      ∃ r, a.reply = .ok r) :
    ∃ k₁ v₁ k₂ v₂, Key.check key₁ = .ok k₁ ∧ value₁ = .str v₁ ∧ Key.check key₂ = .ok k₂ ∧
      value₂ = .str v₂ ∧ t.set s.memory k₁ v₁ = .ok (t.stored k₁ v₁, t.storeEvent k₁ v₁) ∧
      (t.stored k₁ v₁).set s.memory k₂ v₂ =
        .ok ((t.stored k₁ v₁).stored k₂ v₂, (t.stored k₁ v₁).storeEvent k₂ v₂) ∧
      (runFrom s [Step.set name key₁ value₁, Step.set name key₂ value₂]).map (·.reply) =
        [.ok (.flag ((t.storeEvent k₁ v₁).action == .adding)),
          .ok (.flag (((t.stored k₁ v₁).storeEvent k₂ v₂).action == .adding))] ∧
      s.advance [Step.set name key₁ value₁, Step.set name key₂ value₂] =
        s.store name ((t.stored k₁ v₁).stored k₂ v₂) := by
  simp only [runFrom, List.forall_mem_cons] at hok
  obtain ⟨⟨r₁, hr₁⟩, ⟨r₂, hr₂⟩, -⟩ := hok
  obtain ⟨k₁, v₁, hk₁, hv₁, hs₁⟩ := step_set_reply_ok ht hr₁
  have hstep₁ := step_set_eq ht hk₁ hv₁ hs₁
  have ht₁ : (s.step (Step.set name key₁ value₁)).1.table? name = some (t.stored k₁ v₁) := by
    rw [hstep₁, table?_store, if_pos rfl]
  obtain ⟨k₂, v₂, hk₂, hv₂, hs₂⟩ := step_set_reply_ok ht₁ hr₂
  have hstep₂ := step_set_eq ht₁ hk₂ hv₂ hs₂
  rw [hstep₁, store_memory] at hs₂
  refine ⟨k₁, v₁, k₂, v₂, hk₁, hv₁, hk₂, hv₂, hs₁, hs₂, ?_, ?_⟩
  · show [(s.step (Step.set name key₁ value₁)).2.reply,
      ((s.step (Step.set name key₁ value₁)).1.step (Step.set name key₂ value₂)).2.reply] = _
    rw [hstep₂, hstep₁]
  · show ((s.step _).1.step _).1 = _
    rw [hstep₂, hstep₁]
    exact store_store _ _ _ _

/-- A store step that goes through on a well-formed table, made again, finds its key holding the
value and changes nothing. -/
theorem step_set_again {name : Text} {t : Table} (ht : s.table? name = some t) (hwf : t.WellFormed)
    {key value : Datum} {r : Reply} (h : (s.step (Step.set name key value)).2.reply = .ok r) :
    ((s.step (Step.set name key value)).1.step (Step.set name key value)).2.reply =
        .ok (.flag false) ∧
      s.advance [Step.set name key value, Step.set name key value] =
        s.advance [Step.set name key value] := by
  obtain ⟨k, v, hk, hv, hs₁⟩ := step_set_reply_ok ht h
  have hstep₁ := step_set_eq ht hk hv hs₁
  have ht₁ : (s.step (Step.set name key value)).1.table? name = some (t.stored k v) := by
    rw [hstep₁, table?_store, if_pos rfl]
  have hwf₁ := hwf.set hs₁
  have hlook : (t.stored k v).lookup k = some v := by
    rw [hwf.lookup_set hs₁, Function.update_self]
  -- the stored table holds the entry, so storing it again overwrites it with itself
  obtain ⟨ev, hs₂⟩ := hwf₁.set_of_mem (Table.set_eq_ok hs₁).1
    (s.step (Step.set name key value)).1.memory (Table.mem_entries_of_lookup hlook)
  obtain ⟨-, rfl⟩ := Table.set_eq_ok_stored hs₂
  have hfound : ((t.stored k v).find k).isSome := by
    rw [hwf₁.lookup_eq] at hlook
    simpa using congrArg Option.isSome hlook
  have hstep₂ := step_set_eq ht₁ hk hv hs₂
  refine ⟨?_, ?_⟩
  · rw [hstep₂]
    obtain ⟨p, hp⟩ := Option.isSome_iff_exists.1 hfound
    simp [Table.storeEvent_action, hp]
  · show ((s.step _).1.step _).1 = (s.step _).1
    rw [hstep₂, hstep₁]
    exact store_store _ _ _ _

end Session

/-- How the table `t`, held under `name` in the session `s`, answers stores made in either order.
Two stores of distinct keys that go through in both orders give each store the same answer in
both, and leave the same map and the same count. Unless both keys are new to `t` and share a
bucket, the two orders leave the very same session. If they are, the sessions differ only in the
table under the name, and there only in that bucket, whose chain ends with the two new entries in
the order they were stored. A store repeated with the same value answers that its key was not new
and changes nothing. -/
structure Session.StoresCommute (s : Session) (name : Text) (t : Table) : Prop where
  swap : ∀ key₁ value₁ key₂ value₂, key₁ ≠ key₂ →
    (∀ a ∈ Session.runFrom s [Step.set name key₁ value₁, Step.set name key₂ value₂] ++
        Session.runFrom s [Step.set name key₂ value₂, Step.set name key₁ value₁],
      ∃ r, a.reply = .ok r) →
    (Session.runFrom s [Step.set name key₁ value₁, Step.set name key₂ value₂]).map (·.reply) =
        ((Session.runFrom s [Step.set name key₂ value₂, Step.set name key₁ value₁]).map
          (·.reply)).reverse ∧
      ∃ k₁ v₁ k₂ v₂ t₁₂ t₂₁, Key.check key₁ = .ok k₁ ∧ value₁ = .str v₁ ∧
        Key.check key₂ = .ok k₂ ∧ value₂ = .str v₂ ∧
        (s.advance [Step.set name key₁ value₁, Step.set name key₂ value₂]).table? name = some t₁₂ ∧
        (s.advance [Step.set name key₂ value₂, Step.set name key₁ value₁]).table? name = some t₂₁ ∧
        t₁₂.lookup = t₂₁.lookup ∧ t₁₂.count = t₂₁.count ∧
        (¬ (t.lookup k₁ = none ∧ t.lookup k₂ = none ∧ t.bucketIndex k₁ = t.bucketIndex k₂) →
          s.advance [Step.set name key₁ value₁, Step.set name key₂ value₂] =
            s.advance [Step.set name key₂ value₂, Step.set name key₁ value₁]) ∧
        (t.lookup k₁ = none → t.lookup k₂ = none → t.bucketIndex k₁ = t.bucketIndex k₂ →
          s.advance [Step.set name key₁ value₁, Step.set name key₂ value₂] =
            (s.advance [Step.set name key₂ value₂, Step.set name key₁ value₁]).store name t₁₂ ∧
          t₁₂.shape = t₂₁.shape ∧ t₁₂.freed = t₂₁.freed ∧
          t₁₂.chainAt (t.bucketIndex k₁) = t.chainAt (t.bucketIndex k₁) ++ [(k₁, v₁), (k₂, v₂)] ∧
          t₂₁.chainAt (t.bucketIndex k₁) = t.chainAt (t.bucketIndex k₁) ++ [(k₂, v₂), (k₁, v₁)] ∧
          ∀ i, i ≠ t.bucketIndex k₁ → t₁₂.chainAt i = t₂₁.chainAt i)
  twice : ∀ key value r, (s.step (Step.set name key value)).2.reply = .ok r →
    ((s.step (Step.set name key value)).1.step (Step.set name key value)).2.reply =
        .ok (.flag false) ∧
      s.advance [Step.set name key value, Step.set name key value] =
        s.advance [Step.set name key value]

open Session in
/-- **Stores commute.** On every table of a reachable session, stores in either order, and a
store made twice, answer and leave the session as `StoresCommute` says. -/
theorem reachable_stores_commute {s : Session} (hs : s.Reachable) {name : Text} {t : Table}
    (ht : s.table? name = some t) : s.StoresCommute name t := by
  have hwf : t.WellFormed := hs.wellFormed name t ht
  have hnone : ∀ k, t.lookup k = none ↔ t.find k = none := fun k => by
    rw [hwf.lookup_eq, Option.map_eq_none_iff]
  refine ⟨fun key₁ value₁ key₂ value₂ hne hok => ?_, fun key value r h => step_set_again ht hwf h⟩
  rw [List.forall_mem_append] at hok
  obtain ⟨k₁, v₁, k₂, v₂, hk₁, hv₁, hk₂, hv₂, hs₁, hs₁₂, hrun₁₂, hadv₁₂⟩ := runFrom_set_pair ht hok.1
  obtain ⟨k₂', v₂', k₁', v₁', hk₂', hv₂', hk₁', hv₁', hs₂, hs₂₁, hrun₂₁, hadv₂₁⟩ :=
    runFrom_set_pair ht hok.2
  obtain rfl : k₂ = k₂' := Except.ok.inj (hk₂.symm.trans hk₂')
  obtain rfl : v₂ = v₂' := Datum.str.inj (hv₂.symm.trans hv₂')
  obtain rfl : k₁ = k₁' := Except.ok.inj (hk₁.symm.trans hk₁')
  obtain rfl : v₁ = v₁' := Datum.str.inj (hv₁.symm.trans hv₁')
  have hk : k₁ ≠ k₂ := fun h => hne (by rw [Key.eq_of_check hk₁, Key.eq_of_check hk₂, h])
  have hwf₁ := hwf.set hs₁
  have hwf₂ := hwf.set hs₂
  have hlookup :
      ((t.stored k₁ v₁).stored k₂ v₂).lookup = ((t.stored k₂ v₂).stored k₁ v₁).lookup := by
    rw [hwf₁.lookup_set hs₁₂, hwf₂.lookup_set hs₂₁, hwf.lookup_set hs₁, hwf.lookup_set hs₂,
      Function.update_comm hk]
  have hcount :
      ((t.stored k₁ v₁).stored k₂ v₂).count = ((t.stored k₂ v₂).stored k₁ v₁).count := by
    rw [← (hwf₁.set hs₁₂).ncard_dom, ← (hwf₂.set hs₂₁).ncard_dom, hlookup]
  refine ⟨?_, k₁, v₁, k₂, v₂, _, _, hk₁, hv₁, hk₂, hv₂, by rw [hadv₁₂, table?_store, if_pos rfl],
    by rw [hadv₂₁, table?_store, if_pos rfl], hlookup, hcount, fun hx => ?_, fun h₁ h₂ hb => ?_⟩
  · -- each store answers whether its key is new, which the other store leaves as it was
    rw [hrun₁₂, hrun₂₁]
    simp [Table.storeEvent_action, Table.find_stored_of_ne hk, Table.find_stored_of_ne (Ne.symm hk)]
  · rw [hadv₁₂, hadv₂₁,
      Table.stored_comm hk fun h => hx ⟨(hnone k₁).2 h.1, (hnone k₂).2 h.2.1, h.2.2⟩]
  · -- two new keys of one bucket: only that bucket's chain tells the orders apart
    rw [hnone] at h₁ h₂
    have hb' : t.bucketOf k₁ = t.bucketOf k₂ := hb
    refine ⟨by rw [hadv₁₂, hadv₂₁, store_store], rfl, rfl,
      Table.chainAt_stored_stored_of_new hk h₁ h₂ hb', ?_, fun i hi => ?_⟩
    · rw [show t.bucketIndex k₁ = t.bucketOf k₂ from hb',
        Table.chainAt_stored_stored_of_new (Ne.symm hk) h₂ h₁ hb'.symm]
    · have hi₂ : i ≠ t.bucketOf k₂ := fun h => hi (h.trans hb'.symm)
      rw [Table.chainAt_stored_stored_of_ne hi hi₂, Table.chainAt_stored_stored_of_ne hi₂ hi]

/-- The table of one bucket holding two entries, where any two new keys share the one chain, takes
stores in either order as `StoresCommute` says. -/
theorem crowded_table_stores_commute :
    Session.crowded.Reachable ∧
      ∃ t, Session.crowded.table? (.ofString "t") = some t ∧ t.shape.toNat = 1 ∧
        (t.chainAt 0).length = 2 ∧ Session.crowded.StoresCommute (.ofString "t") t :=
  ⟨Session.Reachable.start.advance _, _, rfl, rfl, rfl,
    reachable_stores_commute (Session.Reachable.start.advance _) rfl⟩

end Chaining
