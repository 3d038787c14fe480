import Chaining.Proofs.Session

/-!
# Refused steps change nothing

Every step but a copy of entries makes all its checks before it writes, so a step that is refused
leaves the session exactly as it was: the same tables under the same names, each with the same
chains and count and mark, and the same switches. It traces nothing, and a run that goes on after
it answers as if it had never been asked. A copy stores entry after entry and may be refused
half-way; it is the one exception.

A store checks, in order: that the table is live, that the key is one, that the value is a text,
and, only for a key the table lacks, that memory for a new entry can be had.

* `command_refused`, `onTable_refused`, `step_refused`: a refusal changes nothing, at each level.
* `SetRefusal`: the refusals of a store, in the order they are checked.
* `command_set_refused_iff`: a store is refused exactly as `SetRefusal` says.
* `Session.RefusesCleanly`, `reachable_session_refuses_cleanly`: every reachable session.
-/

namespace Chaining

/-- The refusals of a store of `value` under `key` into `t` with memory `mem`, in the order they
are checked: a released table, a datum that is no key, a value that is no text, and last, for a
key the table lacks, no memory for the new entry. -/
inductive SetRefusal (t : Table) (mem : Memory) (key value : Datum) : Fault → Prop
  | freed : t.freed = true → SetRefusal t mem key value .freed
  | key {e : Fault} : t.freed = false → Key.check key = .error e → SetRefusal t mem key value e
  | value {k : Key} : t.freed = false → Key.check key = .ok k → (∀ v, value ≠ .str v) →
      SetRefusal t mem key value (.valueNotText value.typeName)
  | memory {k : Key} {v : Text} : t.freed = false → Key.check key = .ok k → value = .str v →
      t.lookup k = none → mem = .exhausted → SetRefusal t mem key value (.entryUnavailable k.text)

namespace Session

variable {s : Session}

theorem runFrom_cons (s : Session) (st : Step) (sts : List Step) :
    runFrom s (st :: sts) = (s.step st).2 :: runFrom (s.step st).1 sts := rfl

/-! ## A refusal at each level -/

/-- A command other than a copy that is refused on a well-formed table leaves the table and
reports nothing. -/
theorem command_refused {t : Table} (ht : t.WellFormed) {cmd : Command}
    (hcmd : ∀ source, cmd ≠ .addAll source) {e : Fault}
    (he : (s.command t cmd).reply = .error e) :
    (s.command t cmd).table = none ∧ (s.command t cmd).events = [] := by
  cases cmd with
  | set key value =>
    simp only [command] at he ⊢
    split at he
    · simp [Outcome.refuse]
    · split at he
      · split at he
        · simp [Outcome.refuse]
        · simp at he
      · simp [Outcome.refuse]
  | get key | contains key =>
    simp only [command] at he ⊢
    split at he
    · simp [Outcome.refuse]
    · simp [Outcome.answer] at he
    · simp [Outcome.answer] at he
  | addAll source => exact absurd rfl (hcmd source)
  | free =>
    simp only [command] at he ⊢
    split at he
    · simp [Outcome.refuse]
    · -- a well-formed table passes the release's check, so a release that runs is not refused
      rename_i p hp
      obtain ⟨hl, -⟩ := Table.free_eq_ok hp
      rw [ht.free_eq hl, Except.ok.injEq] at hp
      subst hp
      simp [Outcome.ofProgress] at he
  | _ => simp [command, Outcome.answer]

theorem onTable_refused (hs : s.WellFormed) {name : Text} {cmd : Command}
    (hcmd : ∀ source, cmd ≠ .addAll source) {e : Fault}
    (he : (s.onTable name cmd).2.1 = .error e) :
    (s.onTable name cmd).1 = s ∧ (s.onTable name cmd).2.2 = [] := by
  by_cases hcreate : ∃ count, cmd = .create count
  · obtain ⟨count, rfl⟩ := hcreate
    cases hc : BucketCount.check count with
    | error e' => simp [Session.onTable, hc]
    | ok c => simp [Session.onTable, hc] at he
  · have hcmd' : ∀ count, cmd ≠ .create count := fun count h => hcreate ⟨count, h⟩
    cases ht : s.table? name with
    | none =>
      unfold Session.onTable
      split
      · exact absurd rfl (hcmd' _)
      · simp [ht]
    | some t =>
      rw [onTable_of_table? ht hcmd'] at he ⊢
      obtain ⟨h1, h2⟩ := command_refused (hs name t ht) hcmd he
      simp [h1, h2]

/-- A step other than a copy that is refused leaves the session as it was and traces nothing. -/
theorem step_refused (hs : s.WellFormed) {st : Step}
    (hst : ∀ source, st.action ≠ .table (.addAll source)) {e : Fault}
    (he : (s.step st).2.reply = .error e) : (s.step st).1 = s ∧ (s.step st).2.log = [] := by
  obtain ⟨subject, action⟩ := st
  cases action with
  | trace on => simp [step] at he
  | exhaust on => simp [step] at he
  | table cmd =>
    cases subject with
    | none => simp [step]
    | some name =>
      rw [step_table] at he ⊢
      obtain ⟨h1, h2⟩ := onTable_refused hs (fun source h => hst source (by rw [h])) he
      simp [h1, h2]

/-! ## The order of a store's checks -/

/-- A store into a well-formed table is refused exactly for the first check it fails. -/
theorem command_set_refused_iff {t : Table} (ht : t.WellFormed) {key value : Datum} {e : Fault} :
    (s.command t (.set key value)).reply = .error e ↔ SetRefusal t s.memory key value e := by
  cases hf : t.freed
  · cases hk : Key.check key with
    | error e' =>
      have hlive : liveKey t key = .error e' := by simp [liveKey, hf, hk]
      simp only [command, hlive, Outcome.refuse, Except.error.injEq]
      constructor
      · rintro rfl
        exact .key hf hk
      · intro hr
        cases hr <;> simp_all
    | ok k =>
      have hlive : liveKey t key = .ok k := liveKey_eq_ok.2 ⟨hf, hk⟩
      simp only [command, hlive]
      split
      · rename_i v
        cases hs : t.set s.memory k v with
        | error e' =>
          obtain ⟨hfind, hmem, rfl⟩ : t.find k = none ∧ s.memory = .exhausted ∧
              e' = .entryUnavailable k.text := by
            rcases Table.set_eq_error.1 hs with ⟨hf', -⟩ | ⟨-, h⟩
            · simp [hf] at hf'
            · exact h
          have hlook : t.lookup k = none := by rw [ht.lookup_eq, hfind]; rfl
          simp only [Outcome.refuse, Except.error.injEq]
          constructor
          · rintro rfl
            exact .memory hf hk rfl hlook hmem
          · intro hr
            cases hr <;> simp_all
        | ok r =>
          simp only [reduceCtorEq, false_iff]
          intro hr
          cases hr with
          | freed h => simp [hf] at h
          | key _ h => simp [hk] at h
          | value _ _ h => exact h v rfl
          | memory _ h hv hlook hmem =>
            rw [hk, Except.ok.injEq] at h
            subst h
            cases hv
            have hfind : t.find k = none := by
              rw [ht.lookup_eq, Option.map_eq_none_iff] at hlook
              exact hlook
            rw [Table.set_eq_error.2 (.inr ⟨hf, hfind, hmem, rfl⟩)] at hs
            cases hs
      · rename_i hnot
        simp only [Outcome.refuse, Except.error.injEq]
        constructor
        · rintro rfl
          exact .value hf hk fun v h => hnot v h
        · intro hr
          cases hr <;> simp_all
  · have hlive : liveKey t key = .error .freed := by simp [liveKey, hf]
    simp only [command, hlive, Outcome.refuse, Except.error.injEq]
    constructor
    · rintro rfl
      exact .freed hf
    · intro hr
      cases hr <;> simp_all

/-- A store of a key the table holds goes through whether memory can be had or not, and answers
that the key was not new. -/
theorem command_set_overwrite {t : Table} (ht : t.WellFormed) (hl : t.freed = false)
    {key value : Datum} {k : Key} {v : Text} (hk : Key.check key = .ok k) (hv : value = .str v)
    (hin : (t.lookup k).isSome) :
    (s.command t (.set key value)).reply = .ok (.flag false) := by
  subst hv
  have hlive : liveKey t key = .ok k := liveKey_eq_ok.2 ⟨hl, hk⟩
  cases hs : t.set s.memory k v with
  | error e =>
    rcases Table.set_eq_error.1 hs with ⟨hf, -⟩ | ⟨-, hfind, -⟩
    · simp [hl] at hf
    · rw [ht.lookup_eq, hfind] at hin
      simp at hin
  | ok r =>
    obtain ⟨t', ev⟩ := r
    have hadd : ev.action ≠ .adding := fun h => by
      rw [(ht.set_adding_iff hs).1 h] at hin
      simp at hin
    simp [command, hlive, hs, hadd]

end Session

/-- How a session answers a refused step: a refusal of anything but a copy of entries leaves the
session exactly as it was and traces nothing, so the run after it answers and ends as if it had
never been asked; a store is refused for the first check it fails, in the order of
`SetRefusal`; and a store of a key the table holds goes through even with no memory. -/
structure Session.RefusesCleanly (s : Session) : Prop where
  unchanged : ∀ st : Step, (∀ source, st.action ≠ .table (.addAll source)) → ∀ e,
    (s.step st).2.reply = .error e → (s.step st).1 = s ∧ (s.step st).2.log = []
  replay : ∀ st : Step, (∀ source, st.action ≠ .table (.addAll source)) → ∀ e,
    (s.step st).2.reply = .error e → ∀ sts : List Step,
      Session.runFrom s (st :: sts) = (s.step st).2 :: Session.runFrom s sts ∧
        s.advance (st :: sts) = s.advance sts
  storeOrder : ∀ name t, s.table? name = some t → ∀ key value e,
    (s.step ⟨some name, .table (.set key value)⟩).2.reply = .error e ↔
      SetRefusal t s.memory key value e
  overwrite : ∀ name t, s.table? name = some t → t.freed = false → ∀ key value k v,
    Key.check key = .ok k → value = .str v → (t.lookup k).isSome →
      (s.step ⟨some name, .table (.set key value)⟩).2.reply = .ok (.flag false)

open Session in
/-- **Refused steps change nothing.** Every session a run reaches refuses cleanly: whatever its
tables, switches and history. -/
theorem reachable_session_refuses_cleanly {s : Session} (hs : s.Reachable) :
    s.RefusesCleanly := by
  have hwf := hs.wellFormed
  have hset : ∀ name t, s.table? name = some t → ∀ key value,
      (s.step ⟨some name, .table (.set key value)⟩).2.reply =
        (s.command t (.set key value)).reply :=
    fun name t ht key value => (step_on_table ht fun count h => by cases h).1
  refine ⟨fun st hst e he => step_refused hwf hst he, fun st hst e he sts => ?_,
    fun name t ht key value e => ?_, fun name t ht hl key value k v hk hv hin => ?_⟩
  · have h := (step_refused hwf hst he).1
    refine ⟨?_, ?_⟩
    · rw [runFrom_cons, h]
    · show (s.step st).1.advance sts = s.advance sts
      rw [h]
  · rw [hset name t ht]
    exact command_set_refused_iff (hwf name t ht)
  · rw [hset name t ht]
    exact command_set_overwrite (hwf name t ht) hl hk hv hin

/-- A session whose memory has run out, after a table was made, refuses cleanly. -/
theorem exhausted_session_refuses_cleanly :
    ((Session.start.step ⟨some (.ofString "t"), .table (.create (some (.int 4)))⟩).1.step
        ⟨none, .exhaust (.bool true)⟩).1.Reachable ∧
      ((Session.start.step ⟨some (.ofString "t"), .table (.create (some (.int 4)))⟩).1.step
        ⟨none, .exhaust (.bool true)⟩).1.RefusesCleanly :=
  ⟨.step _ (.step _ .start), reachable_session_refuses_cleanly (.step _ (.step _ .start))⟩

end Chaining
