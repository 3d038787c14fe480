import Chaining.Proofs.Session

/-!
# A table is a finite map

Read a table as the finite map `Table.lookup`: the value of the first entry with a key on a walk
over every chain. Through that map a table behaves as a map does, whatever its bucket count: a
store updates it at one key, a read answers it, the length counts its keys and the key listing
gives each once. Over a run that keeps the table, the map is the fold of the table's stores,
those a copy from another table makes included.

* `ActsAsMap`: how a table of a session answers, read through its map.
* `Session.stores`, `Session.storesAlong`: the stores a step, and a run, make into a named table.
* `lookup_command`, `WellFormed.lookup_step`, `WellFormed.lookup_advance`: the map after a
  command, a step and a run.
* `reachable_table_acts_as_map`: every table of a reachable session acts as its map.
-/

namespace Chaining

namespace Session

variable {s : Session}

/-- The stores a step makes into the table named `name`, each key with its new value, in order:
the events of the step on that table that add or overwrite an entry. -/
def stores (s : Session) (name : Text) (st : Step) : List (Key × Text) :=
  match st.action, st.subject with
  | .table cmd, some n =>
    if n = name then
      ((s.onTable n cmd).2.2.filter (·.action != .getting)).map fun ev => (ev.key, ev.value)
    else []
  | _, _ => []

/-- The stores a run of steps makes into the table named `name`, in order. -/
def storesAlong (s : Session) (name : Text) : List Step → List (Key × Text)
  | [] => []
  | st :: rest => s.stores name st ++ (s.step st).1.storesAlong name rest

end Session

/-- How the table `t`, held in the session `s`, answers when read as its map `t.lookup`. A store
that succeeds adds its key exactly when the map lacks it, and updates the map at that key only. A
read answers the map's value, and nothing exactly when the key is absent; a membership test
answers whether the map holds the key; the length is the number of keys the map holds; the keys
are listed once each, and are exactly those the map holds. Over a run that neither makes a new
table under the name nor releases it, the map is the fold of the stores the run makes into the
table. -/
structure ActsAsMap (s : Session) (name : Text) (t : Table) : Prop where
  store : ∀ key value b, (s.command t (.set key value)).reply = .ok (.flag b) →
    ∃ k v t', Key.check key = .ok k ∧ value = .str v ∧
      (s.command t (.set key value)).table = some t' ∧
      (b = true ↔ t.lookup k = none) ∧ t'.lookup = Function.update t.lookup k (some v)
  read : t.freed = false → ∀ key k, Key.check key = .ok k →
    (s.command t (.get key)).reply = .ok ((t.lookup k).elim .nothing .text)
  member : t.freed = false → ∀ key k, Key.check key = .ok k →
    (s.command t (.contains key)).reply = .ok (.flag (t.lookup k).isSome)
  length : t.freed = false →
    (s.command t .len).reply = .ok (.number {k | (t.lookup k).isSome}.ncard)
  keys : t.freed = false → ∃ ks, (s.command t .keys).reply = .ok (.keys ks) ∧ ks.Nodup ∧
    ∀ k, k ∈ ks ↔ (t.lookup k).isSome
  run : ∀ sts : List Step, (∀ st ∈ sts, ¬ st.Renews name ∧ st ≠ ⟨some name, .table .free⟩) →
    ∃ t', (s.advance sts).table? name = some t' ∧
      t'.lookup = (s.storesAlong name sts).foldl
        (fun (m : Key → Option Text) p => Function.update m p.1 (some p.2)) t.lookup

namespace Session

variable {s : Session}

/-! ## Commands through the map -/

theorem command_set_reply_ok {t : Table} {key value : Datum} {r : Reply}
    (h : (s.command t (.set key value)).reply = .ok r) :
    ∃ k v t' ev, Key.check key = .ok k ∧ value = .str v ∧ t.set s.memory k v = .ok (t', ev) ∧
      s.command t (.set key value) = ⟨some t', .ok (.flag (ev.action == .adding)), [ev]⟩ := by
  simp only [command] at h
  split at h
  · simp [Outcome.refuse] at h
  · rename_i k hk
    split at h
    · split at h
      · simp [Outcome.refuse] at h
      · rename_i v _ t' ev hs
        exact ⟨k, v, t', ev, (liveKey_eq_ok.1 hk).2, rfl, hs, by simp [command, hk, hs]⟩
    · simp [Outcome.refuse] at h

theorem get_reply {t : Table} (ht : t.WellFormed) (hl : t.freed = false) {key : Datum}
    {k : Key} (hk : Key.check key = .ok k) :
    (s.command t (.get key)).reply = .ok ((t.lookup k).elim .nothing .text) := by
  have hlive : liveKey t key = .ok k := liveKey_eq_ok.2 ⟨hl, hk⟩
  rw [ht.lookup_eq]
  cases hf : t.find k <;> simp [command, hlive, Table.get, hl, hf, bind, Except.bind,
    Outcome.answer]

theorem contains_reply {t : Table} (ht : t.WellFormed) (hl : t.freed = false)
    {key : Datum} {k : Key} (hk : Key.check key = .ok k) :
    (s.command t (.contains key)).reply = .ok (.flag (t.lookup k).isSome) := by
  have hlive : liveKey t key = .ok k := liveKey_eq_ok.2 ⟨hl, hk⟩
  rw [ht.lookup_eq]
  cases hf : t.find k <;> simp [command, hlive, Table.get, hl, hf, bind, Except.bind,
    Outcome.answer]

/-- The map after a command other than a release is the fold of the stores it reports. -/
theorem lookup_command {t : Table} (ht : t.WellFormed) (cmd : Command)
    (hfree : cmd ≠ .free) :
    ((s.command t cmd).table.getD t).lookup =
      (((s.command t cmd).events.filter (·.action != .getting)).map
        fun ev => (ev.key, ev.value)).foldl
        (fun (m : Key → Option Text) p => Function.update m p.1 (some p.2)) t.lookup := by
  cases hc : (s.command t cmd).table with
  | none =>
    -- a command that leaves no table reports reads only, and those are no stores
    rw [List.filter_eq_nil_iff.2 fun ev hev => by simp [command_events_of_table_none hc ev hev]]
    rfl
  | some t' =>
    rcases command_table_eq_some hc with ⟨-, -, k, v, ev, -, hs, heq⟩ | ⟨-, src, -, -, heq⟩ |
      ⟨rfl, -⟩
    · obtain ⟨hk, hv, hg⟩ := Table.set_event hs
      rw [heq] at hc ⊢
      simp [hg, hk, hv, ← ht.lookup_set hs]
    · rw [heq] at hc ⊢
      simp only [Outcome.ofProgress, Option.some.injEq] at hc
      subst hc
      simp only [Outcome.ofProgress, Option.getD_some]
      unfold Table.addAll
      split
      · simp
      · obtain ⟨-, hact, hlook⟩ := ht.setAll s.memory src.entries
        rw [List.filter_eq_self.2 fun ev hev => by simpa using hact ev hev]
        exact hlook
    · exact absurd rfl hfree

/-- The map after a step that neither makes a new table under the name nor releases it is the
fold of the stores the step makes into the table. -/
theorem WellFormed.lookup_step (hs : s.WellFormed) {name : Text} {t : Table}
    (ht : s.table? name = some t) (st : Step) (hr : ¬ st.Renews name)
    (hf : st ≠ ⟨some name, .table .free⟩) :
    ∃ t', (s.step st).1.table? name = some t' ∧
      t'.lookup = (s.stores name st).foldl
        (fun (m : Key → Option Text) p => Function.update m p.1 (some p.2)) t.lookup := by
  obtain ⟨subject, action⟩ := st
  cases action with
  | trace on => exact ⟨t, ht, rfl⟩
  | exhaust on => exact ⟨t, ht, rfl⟩
  | table cmd =>
    cases subject with
    | none => exact ⟨t, ht, rfl⟩
    | some n =>
      by_cases hn : n = name
      · subst hn
        by_cases hcreate : ∃ count, cmd = .create count
        · obtain ⟨count, rfl⟩ := hcreate
          cases hc : BucketCount.check count with
          | ok c => exact absurd ⟨count, c, rfl, hc⟩ hr
          | error e =>
            exact ⟨t, by simp [step_table, Session.onTable, hc, ht],
              by simp [stores, Session.onTable, hc]⟩
        · have hcmd : ∀ count, cmd ≠ .create count := fun count h => hcreate ⟨count, h⟩
          refine ⟨(s.command t cmd).table.getD t, ?_, ?_⟩
          · rw [(step_on_table ht hcmd).2 _, if_pos rfl]
          · simp only [stores, onTable_of_table? ht hcmd]
            exact lookup_command (hs n t ht) cmd fun h => hf (by rw [h])
      · refine ⟨t, ?_, by simp [stores, hn]⟩
        rw [step_table, table?_onTable_of_ne (Ne.symm hn)]
        exact ht

/-- The map after a run is the fold of all the stores the run makes into the table. -/
theorem WellFormed.lookup_advance (hs : s.WellFormed) {name : Text} {t : Table}
    (ht : s.table? name = some t) (sts : List Step)
    (hsts : ∀ st ∈ sts, ¬ st.Renews name ∧ st ≠ ⟨some name, .table .free⟩) :
    ∃ t', (s.advance sts).table? name = some t' ∧
      t'.lookup = (s.storesAlong name sts).foldl
        (fun (m : Key → Option Text) p => Function.update m p.1 (some p.2)) t.lookup := by
  induction sts generalizing s t with
  | nil => exact ⟨t, ht, rfl⟩
  | cons st rest ih =>
    have hst := hsts st List.mem_cons_self
    obtain ⟨t₁, ht₁, hl₁⟩ := hs.lookup_step ht st hst.1 hst.2
    obtain ⟨t', ht', hl'⟩ := ih (hs.step st) ht₁ fun st' h => hsts st' (List.mem_cons_of_mem _ h)
    refine ⟨t', ht', ?_⟩
    rw [hl', hl₁, storesAlong, List.foldl_append]

end Session

open Session in
/-- **A table behaves as the finite map its chains hold.** Every table of a session that a run
reaches, with any bucket count, with tracing and memory switched at will and with refused steps
among the rest, acts as its map. -/
theorem reachable_table_acts_as_map {s : Session} (hs : s.Reachable) {name : Text} {t : Table}
    (ht : s.table? name = some t) : ActsAsMap s name t := by
  have hwf : t.WellFormed := hs.wellFormed name t ht
  refine ⟨fun key value b h => ?_, fun hl key k hk => get_reply hwf hl hk,
    fun hl key k hk => contains_reply hwf hl hk, fun hl => ?_, fun hl => ?_,
    fun sts hsts => hs.wellFormed.lookup_advance ht sts hsts⟩
  · obtain ⟨k, v, t', ev, hk, hv, hset, heq⟩ := command_set_reply_ok h
    rw [heq] at h ⊢
    simp only [Except.ok.injEq, Reply.flag.injEq] at h
    refine ⟨k, v, t', hk, hv, rfl, ?_, hwf.lookup_set hset⟩
    rw [← h, beq_iff_eq]
    exact hwf.set_adding_iff hset
  · simp [command, Table.len, hl, hwf.ncard_dom, Outcome.answer, Except.map]
  · refine ⟨t.entries.map (·.1), by simp [command, hwf.keys_eq hl, Outcome.answer, Except.map],
      hwf.keys_nodup, fun k => (Table.lookup_isSome_iff t k).symm⟩

/-- The table of one bucket holding two entries in its one chain acts as its map. -/
theorem crowded_table_acts_as_map :
    Session.crowded.Reachable ∧
      ∃ t, Session.crowded.table? (.ofString "t") = some t ∧ t.shape.toNat = 1 ∧
        (t.chainAt 0).length = 2 ∧ ActsAsMap Session.crowded (.ofString "t") t :=
  ⟨Session.Reachable.start.advance _, _, rfl, rfl, rfl,
    reachable_table_acts_as_map (Session.Reachable.start.advance _) rfl⟩

end Chaining
