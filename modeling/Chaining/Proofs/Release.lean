import Chaining.Proofs.Invariant

/-!
# Releasing a table

A live table of a reachable session can always be released. The release unlinks every chain,
blanks each entry it held, and finds as many entries as the table counts, so its check passes:
the table is left with no buckets, a count of zero and the mark, and keeps its bucket count.
From then on it stays exactly so. Every step that uses it is refused as a use of a released
table, with two exceptions. The bucket of a key needs only the bucket count, so it is still
answered. A copy into it from a live table with no entries has nothing to store, so it goes
through.

* `Session.AnswersReleased`: how a session answers the steps that touch a released table.
* `answersReleased_of_freed`: every session that holds a released table answers so.
* `step_free`: the release of a live well-formed table.
* `release_then_stays_released`: a release on a reachable session, and every run after it.
-/

namespace Chaining

/-- How the session `s` answers the steps that touch the released table under `name`, made with
`c` buckets. Every use of it is refused as a use of a released table: by a step that names it, or
by a copy that takes it as the source, which changes nothing either. The bucket of a key is
still its bucket among `c`. A copy into it from a live table with no entries goes through and
changes nothing. -/
structure Session.AnswersReleased (s : Session) (name : Text) (c : BucketCount) : Prop where
  set : ∀ key value, (s.step ⟨some name, .table (.set key value)⟩).2.reply = .error .freed
  get : ∀ key, (s.step ⟨some name, .table (.get key)⟩).2.reply = .error .freed
  contains : ∀ key, (s.step ⟨some name, .table (.contains key)⟩).2.reply = .error .freed
  len : (s.step ⟨some name, .table .len⟩).2.reply = .error .freed
  keys : (s.step ⟨some name, .table .keys⟩).2.reply = .error .freed
  chainLength : ∀ index,
    (s.step ⟨some name, .table (.chainLength index)⟩).2.reply = .error .freed
  dump : ∀ n, (s.step ⟨some name, .table (.dump n)⟩).2.reply = .error .freed
  free : (s.step ⟨some name, .table .free⟩).2.reply = .error .freed
  bucketIndex : ∀ key, (s.step ⟨some name, .table (.bucketIndex key)⟩).2.reply =
    (Key.check key).map fun k => .number (k.bucket c.toNat)
  asSource : ∀ target u, s.table? target = some u →
    (s.step ⟨some target, .table (.addAll name)⟩).2.reply = .error .freed ∧
      ∀ n, (s.step ⟨some target, .table (.addAll name)⟩).1.table? n = s.table? n
  asTarget : ∀ source u, s.table? source = some u → u.entries ≠ [] →
    (s.step ⟨some name, .table (.addAll source)⟩).2.reply = .error .freed
  fromEmpty : ∀ source u, s.table? source = some u → u.freed = false → u.entries = [] →
    (s.step ⟨some name, .table (.addAll source)⟩).2.reply = .ok .nothing ∧
      ∀ n, (s.step ⟨some name, .table (.addAll source)⟩).1.table? n = s.table? n

namespace Session

variable {s : Session}

/-- A command that leaves the table it ran on as it was leaves every name reading as before. -/
theorem table?_step_of_command {name : Text} {t : Table} (ht : s.table? name = some t)
    {cmd : Command} (hcmd : ∀ count, cmd ≠ .create count)
    (hc : (s.command t cmd).table.getD t = t) (n : Text) :
    (s.step ⟨some name, .table cmd⟩).1.table? n = s.table? n := by
  rw [(step_on_table ht hcmd).2 n, hc]
  by_cases hn : n = name
  · subst hn
    simp [ht]
  · simp [hn]

theorem answersReleased_of_freed {name : Text} {t : Table} (ht : s.table? name = some t)
    (hf : t.freed = true) : s.AnswersReleased name t.shape := by
  have hon : ∀ cmd, (∀ count, cmd ≠ .create count) →
      (s.step ⟨some name, .table cmd⟩).2.reply = (s.command t cmd).reply :=
    fun cmd hcmd => (step_on_table ht hcmd).1
  have hlive : ∀ key, liveKey t key = .error .freed := fun key => by simp [liveKey, hf]
  refine ⟨fun key value => ?_, fun key => ?_, fun key => ?_, ?_, ?_, fun index => ?_, fun n => ?_,
    ?_, fun key => ?_, fun target u hu => ?_, fun source u hu hne => ?_,
    fun source u hu hl hnil => ?_⟩
  · simp [hon, command, hlive, Outcome.refuse]
  · simp [hon, command, hlive, bind, Except.bind, Outcome.refuse]
  · simp [hon, command, hlive, bind, Except.bind, Outcome.refuse]
  · simp [hon, command, Table.len, hf, Outcome.answer, Except.map]
  · simp [hon, command, Table.keys, hf, Outcome.answer, Except.map]
  · simp [hon, command, Table.chainLength, hf, Outcome.answer, Except.map]
  · simp [hon, command, Table.dump, hf, Outcome.answer, Except.map]
  · simp [hon, command, Table.free, hf, Outcome.refuse]
  · rw [hon _ fun _ h => by cases h]
    rfl
  · have hc : s.command u (.addAll name) = ⟨some u, .error .freed, []⟩ := by
      simp [command, ht, Table.addAll, hf, Outcome.ofProgress]
    refine ⟨by rw [(step_on_table hu fun _ h => by cases h).1, hc], fun n => ?_⟩
    exact table?_step_of_command hu (fun _ h => by cases h) (by rw [hc]; rfl) n
  · -- a live source with entries reaches the released table through its first store
    rw [hon _ fun _ h => by cases h]
    cases hfu : u.freed
    · simp [command, hu, Outcome.ofProgress, Table.addAll, hfu, Table.setAll_of_freed hf, hne]
    · simp [command, hu, Outcome.ofProgress, Table.addAll, hfu]
  · have hc : s.command t (.addAll source) = ⟨some t, .ok .nothing, []⟩ := by
      simp [command, hu, Outcome.ofProgress, Table.addAll, hl, hnil, Table.setAll_of_freed hf]
    refine ⟨by rw [hon _ (fun _ h => by cases h), hc], fun n => ?_⟩
    exact table?_step_of_command ht (fun _ h => by cases h) (by rw [hc]; rfl) n

/-- A live well-formed table is released: the step answers nothing and leaves the table with no
buckets, a count of zero and the mark. -/
theorem step_free (hs : s.WellFormed) {name : Text} {t : Table} (ht : s.table? name = some t)
    (hl : t.freed = false) :
    (s.step ⟨some name, .table .free⟩).2.reply = .ok .nothing ∧
      (s.step ⟨some name, .table .free⟩).1.table? name =
        some { t with buckets := .empty, count := 0, freed := true } := by
  obtain ⟨hr, htab⟩ := step_on_table ht (show ∀ count, Command.free ≠ .create count from
    fun _ h => by cases h)
  have hc : s.command t .free =
      ⟨some { t with buckets := .empty, count := 0, freed := true }, .ok .nothing, []⟩ := by
    simp [command, (hs name t ht).free_eq hl, Outcome.ofProgress]
  rw [hr, htab name, if_pos rfl, hc]
  exact ⟨rfl, rfl⟩

end Session

open Session in
/-- **A release, and the table after it.** On a live table of a reachable session the release
goes through: the entries it unlinks are as many as the table counts, each left blank and linked
to nothing. Then, for any run that makes no new table under the name, the table stays with no
buckets, a count of zero, the mark and its bucket count, and every step that touches it is
answered as `AnswersReleased` says. -/
theorem release_then_stays_released {s : Session} (hs : s.Reachable) {name : Text} {t : Table}
    (ht : s.table? name = some t) (hl : t.freed = false) :
    (s.step ⟨some name, .table .free⟩).2.reply = .ok .nothing ∧
      (t.unlinkAll.map (·.1)).foldl (· + ·) 0 = t.count ∧
      t.unlinkAll.flatMap (·.2) = List.replicate t.count ⟨.empty, .empty, true⟩ ∧
      ∀ sts : List Step, (∀ st ∈ sts, ¬ st.Renews name) →
        ((s.step ⟨some name, .table .free⟩).1.advance sts).table? name =
            some { t with buckets := .empty, count := 0, freed := true } ∧
          ((s.step ⟨some name, .table .free⟩).1.advance sts).AnswersReleased name t.shape := by
  have hwf : t.WellFormed := hs.wellFormed name t ht
  obtain ⟨hreply, hfreed⟩ := step_free hs.wellFormed ht hl
  refine ⟨hreply, by rw [Table.released_eq_size, hwf.counted],
    by rw [Table.unlinkAll_blank, hwf.counted], fun sts hsts => ?_⟩
  obtain ⟨t', ht', hb⟩ := advance_becomes hfreed hsts
  rw [hb.released rfl] at ht'
  have hanswers := answersReleased_of_freed ht' rfl
  exact ⟨ht', hanswers⟩

/-- The table of one bucket holding two entries in one chain is released, and stays released. -/
theorem crowded_table_release :
    Session.crowded.Reachable ∧
      ∃ t, Session.crowded.table? (.ofString "t") = some t ∧ (t.chainAt 0).length = 2 ∧
        t.freed = false ∧
        (Session.crowded.step ⟨some (.ofString "t"), .table .free⟩).2.reply = .ok .nothing ∧
        (t.unlinkAll.map (·.1)).foldl (· + ·) 0 = t.count ∧
        t.unlinkAll.flatMap (·.2) = List.replicate t.count ⟨.empty, .empty, true⟩ ∧
        ∀ sts : List Step, (∀ st ∈ sts, ¬ st.Renews (.ofString "t")) →
          ((Session.crowded.step ⟨some (.ofString "t"), .table .free⟩).1.advance sts).table?
              (.ofString "t") = some { t with buckets := .empty, count := 0, freed := true } ∧
            ((Session.crowded.step ⟨some (.ofString "t"), .table .free⟩).1.advance
              sts).AnswersReleased (.ofString "t") t.shape :=
  ⟨Session.Reachable.start.advance _, _, rfl, rfl, rfl,
    release_then_stays_released (Session.Reachable.start.advance _) rfl rfl⟩

end Chaining
