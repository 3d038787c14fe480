import Chaining.Proofs.Store
import Chaining.Proofs.Refusal

/-!
# Copying one table into another

A copy stores the entries of its source into its target one after another, in the order of the
source's key listing, as stores of their own would, and stops at the first store that is refused;
the stores before it stay. So it is not all or nothing, and what it leaves is exactly what the same
stores, each made as a step of its own, would have left up to the one that is refused. When every
store goes through, the target reads as its old map overridden by the source's, and a copy of a
table into itself overwrites every entry with the value it holds and changes nothing.

* `Step.storeOf`, `Step.copyInto`: the store of one entry, and the copy, as steps.
* `addAll_of_freed`, `addAll_of_live`: a copy from a released source is refused; from a live
  one it is the run of stores of the source's entries.
* `setAll_events_of_fault_none`, `foldl_update_of_nodup`, `WellFormed.lookup_setAll`: a copy
  that goes through, read as a map.
* `WellFormed.setAll_of_subset`: storing entries the table holds changes nothing.
* `step_storeOf_refused`, `step_storeOf_stored`, `step_copyInto`: the steps, at session level.
* `runFrom_storeOf_complete`, `runFrom_storeOf_stopped`: a run of stores, one step each, against
  the run of stores a copy makes.
* `Session.CopiesByStores`, `copy_is_run_of_stores`: every copy in a reachable session.
-/

namespace Chaining

/-- The step that stores the entry `e` into the table named `name`, its key and its value passed
as texts. -/
def Step.storeOf (name : Text) (e : Key × Text) : Step :=
  ⟨some name, .table (.set (.str e.1.text) (.str e.2))⟩

/-- The step that copies every entry of the table named `source` into the table named `name`. -/
def Step.copyInto (name source : Text) : Step := ⟨some name, .table (.addAll source)⟩

/-- Storing the entries of a list with distinct keys one after another gives each of its keys
the value of its entry and leaves every other key as it was. -/
theorem foldl_update_of_nodup {κ ν : Type} [DecidableEq κ] :
    ∀ {es : List (κ × ν)}, (es.map (·.1)).Nodup → ∀ m : κ → Option ν,
      es.foldl (fun (m : κ → Option ν) p => Function.update m p.1 (some p.2)) m =
        fun k => ((es.find? (·.1 == k)).map (·.2)).or (m k)
  | [], _, m => rfl
  | (j, v) :: rest, hd, m => by
    rw [List.map_cons, List.nodup_cons] at hd
    rw [List.foldl_cons, foldl_update_of_nodup hd.2]
    funext k
    by_cases hjk : j = k
    · -- the key of the head is no later key, so the later entries leave its value alone
      subst hjk
      have hnone : rest.find? (·.1 == j) = none :=
        List.find?_eq_none.2 fun e he hej => hd.1 (List.mem_map.2 ⟨e, he, beq_iff_eq.1 hej⟩)
      simp [hnone]
    · simp [hjk, Function.update_of_ne (Ne.symm hjk)]

namespace Table

variable {t : Table}

/-- A copy from a released table stores nothing and is refused. -/
theorem addAll_of_freed (mem : Memory) {src : Table} (h : src.freed = true) (t : Table) :
    addAll mem src t = ⟨t, [], some .freed⟩ := by
  simp [addAll, h]

/-- A copy from a live table is the run of stores of its entries. -/
theorem addAll_of_live (mem : Memory) {src : Table} (h : src.freed = false) (t : Table) :
    addAll mem src t = setAll mem src.entries t := by
  simp [addAll, h]

theorem setAll_cons_error {mem : Memory} {k : Key} {v : Text} {e : Fault}
    (hs : t.set mem k v = .error e) (rest : List (Key × Text)) :
    Table.setAll mem ((k, v) :: rest) t = ⟨t, [], some e⟩ := by
  simp [Table.setAll, hs]

theorem setAll_cons_ok {mem : Memory} {k : Key} {v : Text} {t' : Table} {ev : TraceEvent}
    (hs : t.set mem k v = .ok (t', ev)) (rest : List (Key × Text)) :
    Table.setAll mem ((k, v) :: rest) t =
      { Table.setAll mem rest t' with events := ev :: (Table.setAll mem rest t').events } := by
  simp [Table.setAll, hs]

/-- A run of stores that no refusal stopped made one store for each entry, in order. -/
theorem setAll_events_of_fault_none {mem : Memory} :
    ∀ {es : List (Key × Text)} {t : Table}, (Table.setAll mem es t).fault = none →
      (Table.setAll mem es t).events.map (fun ev => (ev.key, ev.value)) = es
  | [], _, _ => rfl
  | (k, v) :: rest, t, h => by
    cases hs : t.set mem k v with
    | error e => simp [setAll_cons_error hs] at h
    | ok r =>
      obtain ⟨t', ev⟩ := r
      obtain ⟨hk, hv, -⟩ := set_event hs
      rw [setAll_cons_ok hs] at h ⊢
      rw [List.map_cons, setAll_events_of_fault_none h, hk, hv]

/-- A run of stores of entries with distinct keys that no refusal stopped leaves the map of the
table overridden by the entries: a key of an entry has the entry's value, any other key keeps
its own. -/
theorem WellFormed.lookup_setAll (h : t.WellFormed) {mem : Memory} {es : List (Key × Text)}
    (hd : (es.map (·.1)).Nodup) (hf : (Table.setAll mem es t).fault = none) :
    (Table.setAll mem es t).table.lookup =
      fun k => ((es.find? (·.1 == k)).map (·.2)).or (t.lookup k) := by
  rw [(h.setAll mem es).2.2, setAll_events_of_fault_none hf, foldl_update_of_nodup hd]

/-- Storing into a live well-formed table entries that it holds, with the values it holds,
goes through store after store and leaves the table as it is. -/
theorem WellFormed.setAll_of_subset (h : t.WellFormed) (hl : t.freed = false) (mem : Memory) :
    ∀ {es : List (Key × Text)}, (∀ e ∈ es, e ∈ t.entries) →
      (Table.setAll mem es t).table = t ∧ (Table.setAll mem es t).fault = none
  | [], _ => ⟨rfl, rfl⟩
  | (k, v) :: rest, hsub => by
    obtain ⟨ev, hs⟩ := h.set_of_mem hl mem (hsub (k, v) List.mem_cons_self)
    rw [setAll_cons_ok hs]
    exact h.setAll_of_subset hl mem fun e he => hsub e (List.mem_cons_of_mem _ he)

end Table

namespace Session

variable {s : Session}

theorem store_memory (s : Session) (name : Text) (t : Table) :
    (s.store name t).memory = s.memory := by
  unfold store
  split <;> rfl

/-- Storing under a name the table it holds changes what no name reads. -/
theorem table?_store_of_table? {name : Text} {t : Table} (ht : s.table? name = some t)
    (n : Text) : (s.store name t).table? n = s.table? n := by
  rw [table?_store]
  split
  · subst n
    exact ht.symm
  · rfl

/-- Storing a table under a name twice reads as storing the second. -/
theorem table?_store_store (s : Session) (name : Text) (t t' : Table) (n : Text) :
    ((s.store name t).store name t').table? n = (s.store name t').table? n := by
  rw [table?_store, table?_store, table?_store]
  split <;> rfl

/-- A store of a key's text and a text value runs the table's store of that key and value. -/
theorem command_storeOf (t : Table) (e : Key × Text) :
    s.command t (.set (.str e.1.text) (.str e.2)) =
      match t.set s.memory e.1 e.2 with
      | .error err => .refuse err
      | .ok (t', ev) => ⟨some t', .ok (.flag (ev.action == .adding)), [ev]⟩ := by
  cases hf : t.freed
  · have hlive : liveKey t (.str e.1.text) = .ok e.1 := liveKey_eq_ok.2 ⟨hf, Key.check_text e.1⟩
    -- split on the store's result, so that both sides reduce to the same outcome
    cases hs : t.set s.memory e.1 e.2 with
    | error err => simp only [command, hlive, hs]
    | ok r =>
      obtain ⟨t', ev⟩ := r
      simp only [command, hlive, hs]
  · simp [command, liveKey, hf, Table.set_of_freed hf]

theorem step_storeOf_refused {name : Text} {t : Table} (ht : s.table? name = some t)
    {e : Key × Text} {err : Fault} (hs : t.set s.memory e.1 e.2 = .error err) :
    (s.step (Step.storeOf name e)).2.reply = .error err ∧ (s.step (Step.storeOf name e)).1 = s := by
  have hc : s.command t (.set (.str e.1.text) (.str e.2)) = .refuse err := by
    rw [command_storeOf, hs]
  have hcmd : ∀ count, Command.set (.str e.1.text) (.str e.2) ≠ .create count := fun _ h => by
    cases h
  rw [Step.storeOf, step_table, onTable_of_table? ht hcmd, hc]
  exact ⟨rfl, rfl⟩

theorem step_storeOf_stored {name : Text} {t : Table} (ht : s.table? name = some t)
    {e : Key × Text} {t' : Table} {ev : TraceEvent} (hs : t.set s.memory e.1 e.2 = .ok (t', ev)) :
    (∃ r, (s.step (Step.storeOf name e)).2.reply = .ok r) ∧
      (s.step (Step.storeOf name e)).1 = s.store name t' ∧
      (s.step (Step.storeOf name e)).1.table? name = some t' ∧
      (s.step (Step.storeOf name e)).1.memory = s.memory := by
  have hc : s.command t (.set (.str e.1.text) (.str e.2)) =
      ⟨some t', .ok (.flag (ev.action == .adding)), [ev]⟩ := by
    rw [command_storeOf, hs]
  have hcmd : ∀ count, Command.set (.str e.1.text) (.str e.2) ≠ .create count := fun _ h => by
    cases h
  have hnext : (s.step (Step.storeOf name e)).1 = s.store name t' := by
    rw [Step.storeOf, step_table, onTable_of_table? ht hcmd, hc]
    rfl
  refine ⟨⟨.flag (ev.action == .adding), ?_⟩, hnext, by rw [hnext, table?_store, if_pos rfl],
    by rw [hnext, store_memory]⟩
  rw [Step.storeOf, step_table, onTable_of_table? ht hcmd, hc]

/-- A copy into a table the session holds, from a table it holds: the refusal it stops at, if
any, and the target left as the copy's run of stores leaves it. -/
theorem step_copyInto {name source : Text} {t u : Table} (ht : s.table? name = some t)
    (hu : s.table? source = some u) :
    (s.step (Step.copyInto name source)).2.reply =
        (match (Table.addAll s.memory u t).fault with
          | some e => .error e
          | none => .ok .nothing) ∧
      (s.step (Step.copyInto name source)).1 = s.store name (Table.addAll s.memory u t).table := by
  have hc : s.command t (.addAll source) = .ofProgress (Table.addAll s.memory u t) := by
    simp [command, hu]
  have hcmd : ∀ count, Command.addAll source ≠ .create count := fun _ h => by cases h
  rw [Step.copyInto, step_table, onTable_of_table? ht hcmd, hc]
  exact ⟨rfl, rfl⟩

/-- When every store of `es`, made as a step of its own on the table under `name`, goes through,
the table's own run of those stores is refused nowhere, and the run of steps leaves every name as
storing the result of that run under `name` does. -/
theorem runFrom_storeOf_complete {name : Text} :
    ∀ {s : Session} {t : Table} {es : List (Key × Text)}, s.table? name = some t →
      (∀ a ∈ runFrom s (es.map (Step.storeOf name)), ∃ r, a.reply = .ok r) →
      (Table.setAll s.memory es t).fault = none ∧
        ∀ n, (s.advance (es.map (Step.storeOf name))).table? n =
          (s.store name (Table.setAll s.memory es t).table).table? n
  | s, t, [], ht, _ => ⟨rfl, fun n => (table?_store_of_table? ht n).symm⟩
  | s, t, e :: rest, ht, hok => by
    rw [List.map_cons, runFrom_cons] at hok
    cases hs : t.set s.memory e.1 e.2 with
    | error err =>
      obtain ⟨r, hr⟩ := hok _ List.mem_cons_self
      rw [(step_storeOf_refused ht hs).1] at hr
      cases hr
    | ok p =>
      obtain ⟨t₁, ev⟩ := p
      obtain ⟨-, hs₁, ht₁, hmem⟩ := step_storeOf_stored ht hs
      obtain ⟨hf, htab⟩ := runFrom_storeOf_complete ht₁ fun a ha =>
        hok a (List.mem_cons_of_mem _ ha)
      rw [hmem] at hf htab
      obtain ⟨k, v⟩ := e
      rw [Table.setAll_cons_ok hs]
      refine ⟨hf, fun n => ?_⟩
      rw [List.map_cons, advance, htab n, hs₁, table?_store_store]

/-- When the stores of the first `j` entries of `es`, made as steps of their own on the table
under `name`, go through and the store of the next is refused, the table's own run of the stores
is refused there for the same cause, and the steps leave every name as storing the result of that
run under `name` does. The cause is a released table, at the very first store, or a key that the
table did not hold before the run, with no memory to be had. -/
theorem runFrom_storeOf_stopped {name : Text} :
    ∀ {s : Session} {t : Table} {es : List (Key × Text)}, s.table? name = some t →
      t.WellFormed → (es.map (·.1)).Nodup → ∀ {j : Nat} {e : Key × Text} {err : Fault},
      es[j]? = some e →
      (∀ a ∈ runFrom s ((es.take j).map (Step.storeOf name)), ∃ r, a.reply = .ok r) →
      ((s.advance ((es.take j).map (Step.storeOf name))).step (Step.storeOf name e)).2.reply =
        .error err →
      (Table.setAll s.memory es t).fault = some err ∧
        (∀ n, (s.advance ((es.take j).map (Step.storeOf name))).table? n =
          (s.store name (Table.setAll s.memory es t).table).table? n) ∧
        ((t.freed = true ∧ j = 0 ∧ err = .freed) ∨
          (t.freed = false ∧ s.memory = .exhausted ∧ t.lookup e.1 = none ∧
            err = .entryUnavailable e.1.text))
  | _, _, [], _, _, _, _, _, _, he, _, _ => by simp at he
  | s, t, e₀ :: rest, ht, hwf, hd, 0, e, err, he, _, herr => by
    simp only [List.getElem?_cons_zero, Option.some.injEq] at he
    subst he
    simp only [List.take_zero, List.map_nil, advance] at herr ⊢
    cases hs : t.set s.memory e₀.1 e₀.2 with
    | ok p =>
      obtain ⟨t₁, ev⟩ := p
      obtain ⟨⟨r, hr⟩, -⟩ := step_storeOf_stored ht hs
      rw [hr] at herr
      cases herr
    | error err' =>
      rw [(step_storeOf_refused ht hs).1, Except.error.injEq] at herr
      subst herr
      obtain ⟨k, v⟩ := e₀
      rw [Table.setAll_cons_error hs]
      refine ⟨rfl, fun n => (table?_store_of_table? ht n).symm, ?_⟩
      rcases Table.set_eq_error.1 hs with ⟨hf, rfl⟩ | ⟨hf, hfind, hmem, rfl⟩
      · exact .inl ⟨hf, trivial, rfl⟩
      · refine .inr ⟨hf, hmem, ?_, rfl⟩
        rw [hwf.lookup_eq, hfind]
        rfl
  | s, t, e₀ :: rest, ht, hwf, hd, j + 1, e, err, he, hok, herr => by
    rw [List.map_cons, List.nodup_cons] at hd
    rw [List.take_succ_cons, List.map_cons, runFrom_cons] at hok
    rw [List.take_succ_cons, List.map_cons] at herr ⊢
    cases hs : t.set s.memory e₀.1 e₀.2 with
    | error err' =>
      obtain ⟨r, hr⟩ := hok _ List.mem_cons_self
      rw [(step_storeOf_refused ht hs).1] at hr
      cases hr
    | ok p =>
      obtain ⟨t₁, ev⟩ := p
      obtain ⟨-, hs₁, ht₁, hmem⟩ := step_storeOf_stored ht hs
      simp only [advance] at herr ⊢
      obtain ⟨hf, htab, hwhy⟩ := runFrom_storeOf_stopped ht₁ (hwf.set hs) hd.2
        (by simpa using he) (fun a ha => hok a (List.mem_cons_of_mem _ ha)) herr
      rw [hmem] at hf htab hwhy
      have hl : t.freed = false := (Table.set_eq_ok hs).1
      have hl₁ : t₁.freed = false := by rw [((hwf.writesOneBucket hs).freed), hl]
      obtain ⟨k₀, v₀⟩ := e₀
      rw [Table.setAll_cons_ok hs]
      refine ⟨hf, fun n => by rw [htab n, hs₁, table?_store_store], .inr ?_⟩
      rcases hwhy with ⟨hf₁, -⟩ | ⟨-, hmem', hnew, rfl⟩
      · simp [hl₁] at hf₁
      · -- the refused key is none of the earlier ones, so the first store left it absent
        have he' : rest[j]? = some e := by simpa using he
        have hne : e.1 ≠ k₀ := fun h => hd.1 (by
          rw [← h]
          exact List.mem_map.2 ⟨e, List.mem_of_getElem? he', rfl⟩)
        rw [hwf.lookup_set hs, Function.update_of_ne hne] at hnew
        exact ⟨hl, hmem', hnew, rfl⟩

end Session

/-- How a copy of the table `u`, held under `source`, into the table `t`, held under `name`,
answers and what it leaves, read against the stores of `u`'s entries into `t`, in the order of
`u`'s key listing, each made as a step of its own. A released source is refused and nothing
changes. Otherwise, when every store goes through, so does the copy, leaving the tables the
stores leave: `t` reads as its map overridden by `u`'s and counts the keys of both, `u` is as it
was, and a table copied into itself is unchanged. When the store of the entry at `j` is the first
refused, the copy is refused for the same cause and leaves the tables the first `j` stores leave,
with `u` as it was; the cause is `t` released, at the first store, or a key new to `t` with no
memory to be had. Into a released `t` a copy of no entries goes through and any other is
refused, changing nothing; a copy of a table into itself always goes through, changing nothing. -/
structure Session.CopiesByStores (s : Session) (name source : Text) (t u : Table) : Prop where
  releasedSource : u.freed = true →
    (s.step (.copyInto name source)).2.reply = .error .freed ∧
      ∀ n, (s.step (.copyInto name source)).1.table? n = s.table? n
  keyOrder : u.freed = false → u.keys = .ok (u.entries.map (·.1))
  complete : u.freed = false →
    (∀ a ∈ Session.runFrom s (u.entries.map (Step.storeOf name)), ∃ r, a.reply = .ok r) →
    (s.step (.copyInto name source)).2.reply = .ok .nothing ∧
      (∀ n, (s.step (.copyInto name source)).1.table? n =
        (s.advance (u.entries.map (Step.storeOf name))).table? n) ∧
      ∃ t', (s.step (.copyInto name source)).1.table? name = some t' ∧
        t'.lookup = (fun k => (u.lookup k).or (t.lookup k)) ∧
        t'.count = {k | (t.lookup k).isSome ∨ (u.lookup k).isSome}.ncard ∧
        (source ≠ name → (s.step (.copyInto name source)).1.table? source = some u) ∧
        (source = name → t' = t)
  stopped : u.freed = false → ∀ j e err, u.entries[j]? = some e →
    (∀ a ∈ Session.runFrom s ((u.entries.take j).map (Step.storeOf name)), ∃ r,
      a.reply = .ok r) →
    ((s.advance ((u.entries.take j).map (Step.storeOf name))).step (Step.storeOf name e)).2.reply =
      .error err →
    (s.step (.copyInto name source)).2.reply = .error err ∧
      (∀ n, (s.step (.copyInto name source)).1.table? n =
        (s.advance ((u.entries.take j).map (Step.storeOf name))).table? n) ∧
      (source ≠ name → (s.step (.copyInto name source)).1.table? source = some u) ∧
      ((t.freed = true ∧ j = 0 ∧ err = .freed) ∨
        (t.freed = false ∧ s.memory = .exhausted ∧ t.lookup e.1 = none ∧
          err = .entryUnavailable e.1.text))
  releasedTarget : u.freed = false → t.freed = true →
    (u.entries ≠ [] → (s.step (.copyInto name source)).2.reply = .error .freed) ∧
      (u.entries = [] → (s.step (.copyInto name source)).2.reply = .ok .nothing) ∧
      ∀ n, (s.step (.copyInto name source)).1.table? n = s.table? n
  self : source = name → u.freed = false →
    (s.step (.copyInto name source)).2.reply = .ok .nothing ∧
      ∀ n, (s.step (.copyInto name source)).1.table? n = s.table? n

open Session in
/-- **A copy is the run of its stores.** In a reachable session, a copy between any two tables it
holds, the same table or not, with memory available or not, answers and leaves the tables as
`CopiesByStores` says. -/
theorem copy_is_run_of_stores {s : Session} (hs : s.Reachable) {name source : Text} {t u : Table}
    (ht : s.table? name = some t) (hu : s.table? source = some u) :
    s.CopiesByStores name source t u := by
  have hwt : t.WellFormed := hs.wellFormed name t ht
  have hwu : u.WellFormed := hs.wellFormed source u hu
  obtain ⟨hreply, hstate⟩ := step_copyInto ht hu
  have hother : ∀ n, n ≠ name →
      (s.step (.copyInto name source)).1.table? n = s.table? n := fun n hn => by
    rw [hstate, table?_store, if_neg hn]
  have hsame : (Table.addAll s.memory u t).table = t →
      ∀ n, (s.step (.copyInto name source)).1.table? n = s.table? n := fun h n => by
    rw [hstate, h, table?_store_of_table? ht]
  have hsource : source ≠ name → (s.step (.copyInto name source)).1.table? source = some u :=
    fun hn => (hother source hn).trans hu
  refine ⟨fun hf => ?_, fun hl => hwu.keys_eq hl, fun hl hok => ?_,
    fun hl j e err he hok herr => ?_, fun hl hf => ?_, fun hn hl => ?_⟩
  · have hadd := Table.addAll_of_freed s.memory hf t
    exact ⟨by rw [hreply, hadd], hsame (by rw [hadd])⟩
  · have hadd := Table.addAll_of_live s.memory hl t
    obtain ⟨hf, htab⟩ := runFrom_storeOf_complete ht hok
    have hlook := hwt.lookup_setAll hwu.keys_nodup hf
    have hwf' := (hwt.setAll s.memory u.entries).1
    rw [← hadd] at hf htab hlook hwf'
    refine ⟨by rw [hreply, hf], fun n => by rw [hstate, htab n], _, ?_, hlook, ?_, hsource,
      fun hn => ?_⟩
    · rw [hstate, table?_store, if_pos rfl]
    · rw [← hwf'.ncard_dom, hlook]
      congr 1
      ext k
      simp [Table.lookup, Or.comm]
    · subst hn
      rw [ht, Option.some.injEq] at hu
      subst hu
      rw [hadd]
      exact (hwt.setAll_of_subset hl s.memory fun e he => he).1
  · have hadd := Table.addAll_of_live s.memory hl t
    obtain ⟨hf, htab, hwhy⟩ := runFrom_storeOf_stopped ht hwt hwu.keys_nodup he hok herr
    rw [← hadd] at hf htab
    exact ⟨by rw [hreply, hf], fun n => by rw [hstate, htab n], hsource, hwhy⟩
  · have hadd : Table.addAll s.memory u t = ⟨t, [], if u.entries = [] then none else some .freed⟩ :=
      by rw [Table.addAll_of_live s.memory hl, Table.setAll_of_freed hf]
    refine ⟨fun hne => by simp [hreply, hadd, hne], fun hnil => by simp [hreply, hadd, hnil],
      hsame (by rw [hadd])⟩
  · subst hn
    rw [ht, Option.some.injEq] at hu
    subst hu
    obtain ⟨htab, hf⟩ := hwt.setAll_of_subset hl s.memory fun e he => he
    have hadd := Table.addAll_of_live s.memory hl t
    rw [← hadd] at htab hf
    exact ⟨by rw [hreply, hf], hsame htab⟩

/-- A session holding an empty table "t" of four buckets and a table "u" of two buckets that
holds "1" under "a". -/
def Session.beforeCopy : Session :=
  Session.start.advance
    [⟨some (.ofString "t"), .table (.create (some (.int 4)))⟩,
      ⟨some (.ofString "u"), .table (.create (some (.int 2)))⟩,
      ⟨some (.ofString "u"), .table (.set (.str (.ofString "a")) (.str (.ofString "1")))⟩]

/-- A table of two buckets holding one entry, copied into an empty table of four buckets. -/
theorem one_entry_copy_is_run_of_stores :
    Session.beforeCopy.Reachable ∧
      ∃ t u, Session.beforeCopy.table? (.ofString "t") = some t ∧
        Session.beforeCopy.table? (.ofString "u") = some u ∧
        Session.beforeCopy.CopiesByStores (.ofString "t") (.ofString "u") t u :=
  ⟨Session.Reachable.start.advance _, _, _, rfl, rfl,
    copy_is_run_of_stores (Session.Reachable.start.advance _) rfl rfl⟩

end Chaining
