import Chaining.Session
import Chaining.Proofs.Table

/-!
# Sessions that a run reaches

A session holds its tables under names, and a step changes at most the table its request names:
it stores a new table there, or the table a command left. Every table a session can reach is
well formed, because a new table is and every command that leaves a table keeps it so.

* `table?_store`: storing a table under a name changes what that name reads and nothing else.
* `command_table_eq_some`: the three commands that leave a table: a store, a copy of another
  table's entries, a release.
* `step_on_table`, `table?_step`: what a step on a table answers and leaves under each name; what
  any step leaves under a name where it makes no new table.
* `Session.WellFormed`, `Session.Reachable`: every table is well formed; the sessions a run of
  steps reaches from the start. `Reachable.wellFormed` joins them.
* `Session.advance`, `Step.Renews`: the session after a run; a step that makes a new table
  under a name.
* `Session.oneBucket`, `Session.crowded`: reachable sessions with a table of one bucket, just
  made, and holding two entries in its one chain, where the results about reachable sessions are
  put to work.
-/

namespace Chaining

/-- Whether the step makes a new table under `name`: it asks for one with a count that a table
accepts. -/
def Step.Renews (name : Text) (st : Step) : Prop :=
  ∃ count c, st = ⟨some name, .table (.create count)⟩ ∧ BucketCount.check count = .ok c

namespace Session

variable {s : Session}

/-! ## Tables by name -/

theorem table?_store (s : Session) (name : Text) (t : Table) (n : Text) :
    (s.store name t).table? n = if n = name then some t else s.table? n := by
  unfold store table?
  split
  · rename_i hany
    rw [List.find?_map]
    by_cases hn : n = name
    · subst hn
      have hp : ((fun e : Text × Table => e.1 == n) ∘ fun e => if e.1 == n then (n, t) else e) =
          fun e => e.1 == n := by
        funext e
        by_cases he : e.1 = n <;> simp [he]
      obtain ⟨e, he, hen⟩ := List.any_eq_true.1 hany
      obtain ⟨e', he'⟩ := Option.isSome_iff_exists.1
        (List.find?_isSome.2 ⟨e, he, hen⟩ : (s.tables.find? (·.1 == n)).isSome)
      have hen' : e'.1 = n := by simpa using List.find?_some he'
      rw [hp, he']
      simp [hen']
    · have hp : ((fun e : Text × Table => e.1 == n) ∘ fun e => if e.1 == name then (name, t) else e) =
          fun e => e.1 == n := by
        funext e
        by_cases he : e.1 = name
        · simp [he]
        · simp [he]
      rw [hp, if_neg hn]
      cases hf : s.tables.find? (·.1 == n) with
      | none => rfl
      | some e =>
        have hen : e.1 = n := by simpa using List.find?_some hf
        simp [hen, hn]
  · rename_i hany
    rw [List.find?_append]
    by_cases hn : n = name
    · subst hn
      have hnone : s.tables.find? (·.1 == n) = none :=
        List.find?_eq_none.2 fun e he hen => hany (List.any_eq_true.2 ⟨e, he, hen⟩)
      simp [hnone]
    · simp [hn, Ne.symm hn]

/-! ## What a command leaves -/

theorem exists_of_bind_eq_ok {ε α β : Type} {x : Except ε α} {f : α → Except ε β} {b : β}
    (h : (x >>= f) = .ok b) : ∃ a, x = .ok a ∧ f a = .ok b := by
  cases x with
  | error e => exact absurd h (by simp [bind, Except.bind])
  | ok a => exact ⟨a, rfl, h⟩

/-- The commands that leave a table behind: a store that succeeds, a copy of the entries of the
table named as the source, and a release, each with all it answers and reports. -/
theorem command_table_eq_some {t t' : Table} {cmd : Command}
    (h : (s.command t cmd).table = some t') :
    (∃ key value k v ev, cmd = .set key value ∧ t.set s.memory k v = .ok (t', ev) ∧
        s.command t cmd = ⟨some t', .ok (.flag (ev.action == .adding)), [ev]⟩) ∨
      (∃ source src, cmd = .addAll source ∧ s.table? source = some src ∧
        s.command t cmd = .ofProgress (Table.addAll s.memory src t)) ∨
      (cmd = .free ∧ ∃ p, t.free = .ok p ∧ s.command t cmd = .ofProgress p) := by
  cases cmd with
  | set key value =>
    simp only [command] at h
    split at h
    · simp [Outcome.refuse] at h
    · rename_i k hk
      split at h
      · split at h
        · simp [Outcome.refuse] at h
        · rename_i v _ t'' ev hs
          simp only [Option.some.injEq] at h
          subst h
          exact .inl ⟨key, _, k, v, ev, rfl, hs, by simp [command, hk, hs]⟩
      · simp [Outcome.refuse] at h
  | addAll source =>
    simp only [command] at h
    split at h
    · simp [Outcome.refuse] at h
    · rename_i src hsrc
      exact .inr (.inl ⟨source, src, rfl, hsrc, by simp [command, hsrc]⟩)
  | free =>
    simp only [command] at h
    split at h
    · simp [Outcome.refuse] at h
    · rename_i p hp
      exact .inr (.inr ⟨rfl, p, hp, by simp [command, hp]⟩)
  | get key | contains key =>
    simp only [command] at h
    split at h <;> simp [Outcome.refuse, Outcome.answer] at h
  | _ => simp [command, Outcome.answer] at h

/-- Every command keeps the table it leaves well formed. -/
theorem command_wellFormed {t t' : Table} {cmd : Command} (ht : t.WellFormed)
    (h : (s.command t cmd).table = some t') : t'.WellFormed := by
  rcases command_table_eq_some h with ⟨-, -, k, v, ev, -, hs, -⟩ | ⟨-, src, -, -, hc⟩ |
    ⟨-, p, hp, hc⟩
  · exact ht.set hs
  · rw [hc, Outcome.ofProgress, Option.some.injEq] at h
    subst h
    unfold Table.addAll
    split
    · exact ht
    · exact (ht.setAll s.memory src.entries).1
  · rw [hc, Outcome.ofProgress, Option.some.injEq] at h
    subst h
    cases hf : t.freed
    · rw [ht.free_eq hf, Except.ok.injEq] at hp
      subst hp
      exact Table.wellFormed_release t
    · simp [Table.free, hf] at hp

theorem liveKey_eq_ok {t : Table} {key : Datum} {k : Key} :
    liveKey t key = .ok k ↔ t.freed = false ∧ Key.check key = .ok k := by
  unfold liveKey
  cases t.freed <;> simp

/-- A read reports the entry it found. -/
theorem get_event {t : Table} {k : Key} {v : Text} {ev : TraceEvent}
    (h : t.get k = .ok (some (v, ev))) :
    t.freed = false ∧ ev.action = .getting ∧ ev.bucket = t.bucketOf k ∧ ev.key = k ∧
      ev.value = v ∧ t.find k = some (ev.link, v) := by
  unfold Table.get at h
  cases hf : t.freed
  · simp only [hf, Bool.false_eq_true, if_false, Except.ok.injEq, Option.map_eq_some_iff,
      Prod.exists, Prod.mk.injEq] at h
    obtain ⟨link, w, hfind, rfl, rfl⟩ := h
    exact ⟨rfl, rfl, rfl, rfl, rfl, hfind⟩
  · simp [hf] at h

/-- A command that leaves no table reports no store: only a read, if anything. -/
theorem command_events_of_table_none {t : Table} {cmd : Command}
    (h : (s.command t cmd).table = none) :
    ∀ ev ∈ (s.command t cmd).events, ev.action = .getting := by
  cases cmd with
  | get key | contains key =>
    simp only [command]
    split
    · simp [Outcome.refuse]
    · simp [Outcome.answer]
    · rename_i v ev hget
      obtain ⟨k, -, hk⟩ := exists_of_bind_eq_ok hget
      simp [Outcome.answer, (get_event hk).2.1]
  | set key value =>
    simp only [command] at h ⊢
    split at h
    · simp [Outcome.refuse]
    · split at h
      · split at h
        · simp [Outcome.refuse]
        · simp at h
      · simp [Outcome.refuse]
  | addAll source =>
    simp only [command] at h ⊢
    split at h
    · simp [Outcome.refuse]
    · simp [Outcome.ofProgress] at h
  | free =>
    simp only [command] at h ⊢
    split at h
    · simp [Outcome.refuse]
    · simp [Outcome.ofProgress] at h
  | _ => simp [command, Outcome.answer]

/-! ## Steps -/

/-- A command on a table the session holds: the session keeps the table the command left, and the
step answers and reports what the command did. -/
theorem onTable_of_table? {name : Text} {t : Table} (ht : s.table? name = some t) {cmd : Command}
    (hcmd : ∀ count, cmd ≠ .create count) :
    s.onTable name cmd =
      (((s.command t cmd).table.map (s.store name)).getD s, (s.command t cmd).reply,
        (s.command t cmd).events) := by
  unfold Session.onTable
  split
  · exact absurd rfl (hcmd _)
  · rw [ht]
    dsimp only
    split <;> simp_all

theorem table?_onTable_of_ne {name n : Text} (hn : n ≠ name) (cmd : Command) :
    (s.onTable name cmd).1.table? n = s.table? n := by
  unfold Session.onTable
  split
  · split
    · rfl
    · rw [table?_store, if_neg hn]
  · split
    · rfl
    · dsimp only
      split
      · rw [table?_store, if_neg hn]
      · rfl

theorem step_table (s : Session) (name : Text) (cmd : Command) :
    s.step ⟨some name, .table cmd⟩ =
      ((s.onTable name cmd).1, ⟨(s.onTable name cmd).2.1,
        if s.tracing then (s.onTable name cmd).2.2.map TraceEvent.line else [],
        ((s.onTable name cmd).1.table? name).map fun t => (t.count, t.freed)⟩) := rfl

/-- A step that runs a command on a table the session holds answers what the command answers,
and leaves under the name the table the command left, and every other name as it was. -/
theorem step_on_table {name : Text} {t : Table} (ht : s.table? name = some t) {cmd : Command}
    (hcmd : ∀ count, cmd ≠ .create count) :
    (s.step ⟨some name, .table cmd⟩).2.reply = (s.command t cmd).reply ∧
      ∀ n, (s.step ⟨some name, .table cmd⟩).1.table? n =
        if n = name then some ((s.command t cmd).table.getD t) else s.table? n := by
  rw [step_table, onTable_of_table? ht hcmd]
  refine ⟨rfl, fun n => ?_⟩
  cases (s.command t cmd).table with
  | some t' => simp [table?_store]
  | none =>
    by_cases hn : n = name
    · subst hn
      simp [ht]
    · simp [hn]

/-- What a step leaves under a name, when it makes no new table there: the table that was there,
or the one a command on that table left. -/
theorem table?_step {name : Text} {t : Table} (ht : s.table? name = some t) {st : Step}
    (hr : ¬ st.Renews name) :
    (s.step st).1.table? name = some t ∨
      ∃ cmd, (∀ count, cmd ≠ .create count) ∧ st = ⟨some name, .table cmd⟩ ∧
        (s.step st).1.table? name = some ((s.command t cmd).table.getD t) := by
  obtain ⟨subject, action⟩ := st
  cases action with
  | trace on => exact .inl ht
  | exhaust on => exact .inl ht
  | table cmd =>
    cases subject with
    | none => exact .inl ht
    | some n =>
      by_cases hn : n = name
      · subst hn
        by_cases hcreate : ∃ count, cmd = .create count
        · obtain ⟨count, rfl⟩ := hcreate
          cases hc : BucketCount.check count with
          | ok c => exact absurd ⟨count, c, rfl, hc⟩ hr
          | error e => exact .inl (by simp [step_table, Session.onTable, hc, ht])
        · have hcmd : ∀ count, cmd ≠ .create count := fun count h => hcreate ⟨count, h⟩
          refine .inr ⟨cmd, hcmd, rfl, ?_⟩
          rw [(step_on_table ht hcmd).2 _, if_pos rfl]
      · refine .inl ?_
        rw [step_table, table?_onTable_of_ne (Ne.symm hn)]
        exact ht

/-! ## Reachable sessions -/

/-- Every table of the session is well formed. -/
def WellFormed (s : Session) : Prop := ∀ name t, s.table? name = some t → t.WellFormed

theorem WellFormed.onTable (hs : s.WellFormed) (name : Text) (cmd : Command) :
    (s.onTable name cmd).1.WellFormed := by
  intro n t' ht'
  unfold Session.onTable at ht'
  split at ht'
  · split at ht'
    · exact hs n t' ht'
    · rw [table?_store] at ht'
      split at ht'
      · cases ht'
        exact Table.wellFormed_create _
      · exact hs n t' ht'
  · split at ht'
    · exact hs n t' ht'
    · rename_i t hname
      dsimp only at ht'
      split at ht'
      · rename_i t'' hc
        rw [table?_store] at ht'
        split at ht'
        · cases ht'
          exact command_wellFormed (hs name t hname) hc
        · exact hs n t' ht'
      · exact hs n t' ht'

/-- A step keeps every table of the session well formed. -/
theorem WellFormed.step (hs : s.WellFormed) (st : Step) : (s.step st).1.WellFormed := by
  obtain ⟨subject, action⟩ := st
  cases action with
  | table cmd =>
    cases subject with
    | none => exact hs
    | some name => exact hs.onTable name cmd
  | trace on => exact hs
  | exhaust on => exact hs

/-- The sessions that a run of steps reaches from the start. -/
inductive Reachable : Session → Prop
  | start : Reachable start
  | step {s : Session} (st : Step) : Reachable s → Reachable (s.step st).1

theorem Reachable.wellFormed (h : s.Reachable) : s.WellFormed := by
  induction h with
  | start => intro name t ht; simp [Session.start, table?] at ht
  | step st _ ih => exact ih.step st

/-- The session after the steps, run in order. -/
def advance (s : Session) : List Step → Session
  | [] => s
  | st :: rest => (s.step st).1.advance rest

theorem Reachable.advance (h : s.Reachable) (sts : List Step) : (s.advance sts).Reachable := by
  induction sts generalizing s with
  | nil => exact h
  | cons st rest ih => exact ih (h.step st)

theorem advance_append (s : Session) (sts sts' : List Step) :
    s.advance (sts ++ sts') = (s.advance sts).advance sts' := by
  induction sts generalizing s with
  | nil => rfl
  | cons st rest ih => exact ih _

/-- A session holding a table "t" of one bucket, just made. -/
def oneBucket : Session :=
  start.advance [⟨some (.ofString "t"), .table (.create (some (.int 1)))⟩]

/-- A session holding a table "t" of one bucket that holds "1" under "a" and "2" under "b", so
that every key shares one chain. -/
def crowded : Session :=
  start.advance
    [⟨some (.ofString "t"), .table (.create (some (.int 1)))⟩,
      ⟨some (.ofString "t"), .table (.set (.str (.ofString "a")) (.str (.ofString "1")))⟩,
      ⟨some (.ofString "t"), .table (.set (.str (.ofString "b")) (.str (.ofString "2")))⟩]

end Session

end Chaining
