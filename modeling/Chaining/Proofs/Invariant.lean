import Chaining.Proofs.Session

/-!
# What a table keeps over its life

A table lives under its name from the step that makes it to the step that makes a new one there.
In between, no step changes its bucket count, and no step takes back a release: a released table
stays exactly as it is. Together with the well-formedness of every reachable table this is the
table's invariant, read on its row of buckets.

* `Table.Becomes`: what a table keeps on a step: its bucket count, and all of it once released.
* `command_becomes`, `step_becomes`, `advance_becomes`: a command, a step, a run.
* `Table.Invariant`: the invariant of a table made with `c` buckets.
* `run_keeps_table_invariant`: every table a run reaches from a new one keeps the invariant,
  and once released stays as it is for the rest of the run.
-/

namespace Chaining

namespace Table

/-- What a table keeps from `t` to `t'`: its bucket count, and, once released, everything. -/
structure Becomes (t t' : Table) : Prop where
  shape : t'.shape = t.shape
  released : t.freed = true → t' = t

theorem Becomes.refl (t : Table) : t.Becomes t := ⟨rfl, fun _ => rfl⟩

theorem Becomes.trans {t₁ t₂ t₃ : Table} (h₁ : t₁.Becomes t₂) (h₂ : t₂.Becomes t₃) :
    t₁.Becomes t₃ where
  shape := h₂.shape.trans h₁.shape
  released hf := by
    have h12 := h₁.released hf
    have hf₂ : t₂.freed = true := by rw [h12]; exact hf
    rw [h₂.released hf₂, h12]

theorem addAll_becomes (mem : Memory) (src t : Table) : t.Becomes (addAll mem src t).table where
  shape := by
    unfold addAll
    split
    · rfl
    · exact setAll_shape mem src.entries t
  released hf := by
    unfold addAll
    split
    · rfl
    · rw [setAll_of_freed hf]

/-- The invariant of a table made with `c` buckets, read on its row of `c` chains. The count is
still `c`, no bucket past it holds a chain, and the `c` chains hold every entry. Every entry has a
key the table accepts and sits in the bucket its key hashes to. No chain holds a key twice, and so
neither does the table. The count is the sum of the lengths of the chains. A released table holds
nothing and counts nothing. -/
structure Invariant (c : BucketCount) (t : Table) : Prop where
  shape : t.shape = c
  beyond : ∀ i, c.toNat ≤ i → t.chainAt i = []
  spans : (t.buckets.toList c.toNat).flatten = t.entries
  keyed : ∀ i, ∀ e ∈ t.chainAt i, Key.check (.str e.1.text) = .ok e.1 ∧ e.1.bucket c.toNat = i
  chainDistinct : ∀ i, ((t.chainAt i).map (·.1)).Nodup
  distinct : (t.entries.map (·.1)).Nodup
  summed : t.count = ((t.buckets.toList c.toNat).map List.length).sum
  released : t.freed = true → t.buckets = .empty ∧ t.count = 0

theorem WellFormed.invariant {t : Table} (h : t.WellFormed) : t.Invariant t.shape := by
  have hspans : (t.buckets.toList t.shape.toNat).flatten = t.entries := by
    rw [Row.flatten_toList, h.entries_eq]
    rfl
  refine ⟨rfl, fun i hi => h.ordered.get_eq_nil hi, hspans,
    fun i e he => ⟨Key.check_text e.1, h.placed i e he⟩, h.distinct, h.keys_nodup, ?_, h.released⟩
  rw [h.counted, size, ← hspans, List.length_flatten]

end Table

namespace Session

variable {s : Session}

/-- A command keeps the bucket count of the table it runs on, and leaves a released table as it
is. -/
theorem command_becomes {t : Table} (cmd : Command) :
    t.Becomes ((s.command t cmd).table.getD t) := by
  cases hc : (s.command t cmd).table with
  | none => exact .refl t
  | some t' =>
    rw [Option.getD_some]
    rcases command_table_eq_some hc with ⟨-, -, k, v, ev, -, hs, -⟩ | ⟨-, src, -, -, heq⟩ |
      ⟨-, p, hp, heq⟩
    · obtain ⟨hl, -⟩ := Table.set_eq_ok hs
      exact ⟨Table.set_shape hs, fun hf => absurd hf (by simp [hl])⟩
    · rw [heq, Outcome.ofProgress, Option.some.injEq] at hc
      subst hc
      exact Table.addAll_becomes _ _ _
    · rw [heq, Outcome.ofProgress, Option.some.injEq] at hc
      subst hc
      obtain ⟨hl, hshape⟩ := Table.free_eq_ok hp
      exact ⟨hshape, fun hf => absurd hf (by simp [hl])⟩

theorem step_becomes {name : Text} {t : Table} (ht : s.table? name = some t) {st : Step}
    (hr : ¬ st.Renews name) : ∃ t', (s.step st).1.table? name = some t' ∧ t.Becomes t' := by
  rcases table?_step ht hr with h | ⟨cmd, -, -, h⟩
  · exact ⟨t, h, .refl t⟩
  · exact ⟨_, h, command_becomes cmd⟩

theorem advance_becomes {name : Text} {t : Table} (ht : s.table? name = some t) {sts : List Step}
    (hsts : ∀ st ∈ sts, ¬ st.Renews name) :
    ∃ t', (s.advance sts).table? name = some t' ∧ t.Becomes t' := by
  induction sts generalizing s t with
  | nil => exact ⟨t, ht, .refl t⟩
  | cons st rest ih =>
    obtain ⟨t₁, ht₁, h₁⟩ := step_becomes ht (hsts st List.mem_cons_self)
    obtain ⟨t', ht', h'⟩ := ih ht₁ fun st' h => hsts st' (List.mem_cons_of_mem _ h)
    exact ⟨t', ht', h₁.trans h'⟩

end Session

open Session in
/-- **The invariant of a table.** Take a table just made with `c` buckets in a session a run
reaches, and any run that makes no new table under its name: whatever else the run does, on this
table or on others, with refused steps among the rest, the table it leaves keeps the invariant of
`c` buckets, and once released it stays exactly as it is for any run that follows. -/
theorem run_keeps_table_invariant {s : Session} (hs : s.Reachable) {name : Text}
    {c : BucketCount} (ht : s.table? name = some (Table.create c)) {sts : List Step}
    (hsts : ∀ st ∈ sts, ¬ st.Renews name) :
    ∃ t, (s.advance sts).table? name = some t ∧ t.Invariant c ∧
      (t.freed = true → ∀ sts' : List Step, (∀ st ∈ sts', ¬ st.Renews name) →
        (s.advance (sts ++ sts')).table? name = some t) := by
  obtain ⟨t, ht', hb⟩ := advance_becomes ht hsts
  have hwf : t.WellFormed := (hs.advance sts).wellFormed name t ht'
  have hshape : t.shape = c := hb.shape
  refine ⟨t, ht', hshape ▸ hwf.invariant, fun hf sts' hsts' => ?_⟩
  obtain ⟨t', ht'', hb'⟩ := advance_becomes ht' hsts'
  rw [advance_append, ht'', hb'.released hf]

/-- A table of four buckets: a store and a release later, it keeps the invariant of four
buckets. -/
theorem stored_then_released_invariant :
    (Session.start.step ⟨some (.ofString "t"), .table (.create (some (.int 4)))⟩).1.Reachable ∧
      (Session.start.step ⟨some (.ofString "t"), .table (.create (some (.int 4)))⟩).1.table?
        (.ofString "t") = some (Table.create (.count 4 (by decide))) ∧
      (∀ st ∈ [⟨some (.ofString "t"), .table (.set (.str (.ofString "a")) (.str (.ofString "1")))⟩,
          ⟨some (.ofString "t"), .table .free⟩], ¬ Step.Renews (.ofString "t") st) ∧
      ∃ t, ((Session.start.step ⟨some (.ofString "t"), .table (.create (some (.int 4)))⟩).1.advance
          [⟨some (.ofString "t"), .table (.set (.str (.ofString "a")) (.str (.ofString "1")))⟩,
            ⟨some (.ofString "t"), .table .free⟩]).table? (.ofString "t") = some t ∧
        t.Invariant (.count 4 (by decide)) ∧
        (t.freed = true → ∀ sts' : List Step, (∀ st ∈ sts', ¬ st.Renews (.ofString "t")) →
          ((Session.start.step ⟨some (.ofString "t"), .table (.create (some (.int 4)))⟩).1.advance
            ([⟨some (.ofString "t"), .table (.set (.str (.ofString "a")) (.str (.ofString "1")))⟩,
              ⟨some (.ofString "t"), .table .free⟩] ++ sts')).table? (.ofString "t") = some t) := by
  have hsts : ∀ st ∈ [⟨some (.ofString "t"), .table (.set (.str (.ofString "a"))
      (.str (.ofString "1")))⟩, ⟨some (.ofString "t"), .table .free⟩],
      ¬ Step.Renews (.ofString "t") st := by
    intro st hst
    simp only [List.mem_cons, List.not_mem_nil, or_false] at hst
    rcases hst with rfl | rfl <;> simp [Step.Renews]
  exact ⟨.step _ .start, rfl, hsts, run_keeps_table_invariant (.step _ .start) rfl hsts⟩

end Chaining
