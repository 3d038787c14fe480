import Chaining.Proofs.Refusal
import Chaining.Proofs.Copy

/-!
# No undocumented failure

Every operation on a table of a reachable session fails, when it fails, only in the classes its
documentation names. The failures a table could run into on its own are ruled out by its
invariant: the key listing fills exactly the buffer its count sizes, and a release finds as many
entries as the table counts. The bucket of a key is the remainder of its checksum by the bucket
count, which is at least one, so the remainder never divides by zero and always indexes a bucket
of the row. A new key goes to the head of an empty bucket and otherwise after the tail, so the
tail is only looked for in a chain that has one.

* `Command.refusals`: the classes of refusal each command is documented to make.
* `Key.check_error_kind`, `liveKey_error`, `setAll_fault`, `chainLength_error_kind`: where the
  refusals of the parts come from.
* `chainLength_of_numeric_int`, `chainLength_of_int`: an index reading as an integer is refused
  only by a released table or as out of range.
* `command_error_documented`: a command on a well-formed table refuses only as documented.
* `Session.SafeToUse`, `reachable_table_is_safe_to_use`: every table of a reachable session.
-/

namespace Chaining

/-- The classes of refusal each command is documented to make. A store refuses a released
table, an invalid key, a value that is no text and, for a new key, memory it cannot have; a read
and a membership test refuse a released table and an invalid key; the length, the key listing,
the release and the listing refuse a released table; the bucket of a key refuses an invalid key;
the length of a chain refuses a released table and an index out of range or of the wrong kind; a
copy refuses a released table and memory it cannot have; a new table refuses a count below one
and buckets it cannot allocate. Reading the state of a table never fails. -/
def Command.refusals : Command → List String
  | .create _ => ["ValueError", "AllocationError"]
  | .set _ _ => ["FreedTableError", "InvalidKeyError", "TypeError", "AllocationError"]
  | .get _ | .contains _ => ["FreedTableError", "InvalidKeyError"]
  | .len | .keys | .free | .dump _ => ["FreedTableError"]
  | .bucketIndex _ => ["InvalidKeyError"]
  | .chainLength _ => ["FreedTableError", "IndexError", "TypeError"]
  | .addAll _ => ["FreedTableError", "AllocationError"]
  | .layout => []

theorem Key.check_error_kind {d : Datum} {e : Fault} (h : Key.check d = .error e) :
    e.kind = "InvalidKeyError" := by
  unfold Key.check at h
  split at h
  · split at h <;> cases h <;> rfl
  · cases h
    rfl

@[simp] theorem Numeric.geInt_int (n m : Int) : (Numeric.int n).geInt m = decide (m ≤ n) := by
  simp only [Numeric.geInt, Numeric.compareInt]
  rcases lt_trichotomy n m with h | h | h
  · simp [compare_lt_iff_lt.2 h, h]
  · simp [h]
  · simp [compare_gt_iff_gt.2 h, h.le]

@[simp] theorem Numeric.ltInt_int (n m : Int) : (Numeric.int n).ltInt m = decide (n < m) := by
  simp only [Numeric.ltInt, Numeric.compareInt]
  rcases lt_trichotomy n m with h | h | h
  · simp [compare_lt_iff_lt.2 h, h]
  · simp [h]
  · simp [compare_gt_iff_gt.2 h, not_lt.2 h.le]

namespace Table

variable {t : Table}

/-- A run of stores is stopped only by a released table or by memory a new key cannot have. -/
theorem setAll_fault {mem : Memory} :
    ∀ {es : List (Key × Text)} {t : Table} {e : Fault}, (Table.setAll mem es t).fault = some e →
      e = .freed ∨ ∃ key, e = .entryUnavailable key
  | [], _, _, h => by simp [Table.setAll] at h
  | (k, v) :: rest, t, e, h => by
    cases hs : t.set mem k v with
    | error e' =>
      rw [setAll_cons_error hs, Option.some.injEq] at h
      subst h
      rcases set_eq_error.1 hs with ⟨-, rfl⟩ | ⟨-, -, -, rfl⟩
      · exact .inl rfl
      · exact .inr ⟨_, rfl⟩
    | ok r =>
      obtain ⟨t', ev⟩ := r
      rw [setAll_cons_ok hs] at h
      exact setAll_fault h

theorem chainLength_error_kind {index : Datum} {e : Fault} (h : t.chainLength index = .error e) :
    e.kind ∈ ["FreedTableError", "IndexError", "TypeError"] := by
  unfold chainLength at h
  split at h
  · cases h
    simp [Fault.kind]
  · split at h
    · cases h
      simp [Fault.kind]
    · split at h
      · split at h
        · cases h
        · cases h
          simp [Fault.kind]
      · cases h
        simp [Fault.kind]

/-- The length of a chain at an index reading as the integer `n` (an integer, or a truth value
reading as `0` or `1`): refused on a released table, read off the bucket's chain in range, and
refused as out of range otherwise. -/
theorem chainLength_of_numeric_int {index : Datum} {n : Int} (h : index.numeric? = some (.int n)) :
    t.chainLength index =
      if t.freed then .error .freed
      else if 0 ≤ n ∧ n < t.shape.toNat then .ok (t.chainAt n.toNat).length
      else .error (.indexOutOfRange index.display t.shape.display) := by
  simp [chainLength, h]

/-- An integer index, the kind the length of a chain is documented to take, is refused only by a
released table or as out of range, and in range reads the bucket's chain. -/
theorem chainLength_of_int (n : Int) :
    (t.freed = false → 0 ≤ n → n < t.shape.toNat →
      t.chainLength (.int n) = .ok (t.chainAt n.toNat).length) ∧
    ∀ e, t.chainLength (.int n) = .error e → e.kind ∈ ["FreedTableError", "IndexError"] := by
  rw [chainLength_of_numeric_int rfl]
  refine ⟨fun hl h0 hlt => by simp [hl, h0, hlt], fun e he => ?_⟩
  split at he
  · cases he
    simp [Fault.kind]
  · split at he
    · cases he
    · cases he
      simp [Fault.kind]

end Table

namespace Session

variable {s : Session}

theorem liveKey_error {t : Table} {key : Datum} {e : Fault} (h : liveKey t key = .error e) :
    e = .freed ∨ Key.check key = .error e := by
  unfold liveKey at h
  split at h
  · cases h
    exact .inl rfl
  · exact .inr h

/-- A read refuses only a released table and an invalid key. -/
theorem read_error {t : Table} {key : Datum} {e : Fault}
    (h : (liveKey t key >>= fun k => t.get k) = .error e) :
    e = .freed ∨ Key.check key = .error e := by
  cases hk : liveKey t key with
  | error e' =>
    rw [hk] at h
    cases h
    exact liveKey_error hk
  | ok k =>
    rw [hk] at h
    have hl : t.freed = false := (liveKey_eq_ok.1 hk).1
    simp [bind, Except.bind, Table.get, hl] at h

/-- A command on a well-formed table, whose copies name a source the session holds, refuses only
in the classes its documentation names. -/
theorem command_error_documented {t : Table} (ht : t.WellFormed) {cmd : Command}
    (hsrc : ∀ source, cmd = .addAll source → (s.table? source).isSome) {e : Fault}
    (he : (s.command t cmd).reply = .error e) : e.kind ∈ cmd.refusals := by
  cases cmd with
  | create count => simp [command, Outcome.answer] at he
  | set key value =>
    cases (command_set_refused_iff ht).1 he with
    | freed => simp [Fault.kind, Command.refusals]
    | key _ hk => simp [Key.check_error_kind hk, Command.refusals]
    | value => simp [Fault.kind, Command.refusals]
    | memory => simp [Fault.kind, Command.refusals]
  | get key | contains key =>
    simp only [command] at he
    split at he
    · rename_i e' hread
      simp only [Outcome.refuse, Except.error.injEq] at he
      subst he
      rcases read_error hread with rfl | hk
      · simp [Fault.kind, Command.refusals]
      · simp [Key.check_error_kind hk, Command.refusals]
    · simp [Outcome.answer] at he
    · simp [Outcome.answer] at he
  | len =>
    cases hf : t.freed <;> simp [command, Table.len, hf, Outcome.answer, Except.map] at he
    subst he
    simp [Fault.kind, Command.refusals]
  | keys =>
    -- a well-formed table fills the listing's buffer exactly, so only a release refuses it
    cases hf : t.freed
    · simp [command, ht.keys_eq hf, Outcome.answer, Except.map] at he
    · simp [command, Table.keys, hf, Outcome.answer, Except.map] at he
      subst he
      simp [Fault.kind, Command.refusals]
  | bucketIndex key =>
    cases hk : Key.check key with
    | error e' =>
      simp [command, hk, Outcome.answer, Except.map] at he
      subst he
      simp [Key.check_error_kind hk, Command.refusals]
    | ok k => simp [command, hk, Outcome.answer, Except.map] at he
  | chainLength index =>
    cases hc : t.chainLength index with
    | error e' =>
      simp [command, hc, Outcome.answer, Except.map] at he
      subst he
      simpa [Command.refusals] using Table.chainLength_error_kind hc
    | ok n => simp [command, hc, Outcome.answer, Except.map] at he
  | addAll source =>
    obtain ⟨src, hu⟩ := Option.isSome_iff_exists.1 (hsrc source rfl)
    have hc : s.command t (.addAll source) = .ofProgress (Table.addAll s.memory src t) := by
      simp [command, hu]
    rw [hc] at he
    cases hf : (Table.addAll s.memory src t).fault with
    | none => simp [Outcome.ofProgress, hf] at he
    | some e' =>
      simp only [Outcome.ofProgress, hf, Except.error.injEq] at he
      subst he
      cases hsf : src.freed
      · rw [Table.addAll_of_live s.memory hsf] at hf
        rcases Table.setAll_fault hf with rfl | ⟨key, rfl⟩ <;> simp [Fault.kind, Command.refusals]
      · simp only [Table.addAll_of_freed s.memory hsf, Option.some.injEq] at hf
        subst hf
        simp [Fault.kind, Command.refusals]
  | free =>
    -- a well-formed table passes the release's check, so only a second release is refused
    cases hf : t.freed
    · simp [command, ht.free_eq hf, Outcome.ofProgress] at he
    · simp [command, Table.free, hf, Outcome.refuse] at he
      subst he
      simp [Fault.kind, Command.refusals]
  | dump name =>
    cases hf : t.freed <;> simp [command, Table.dump, hf, Outcome.answer, Except.map] at he
    subst he
    simp [Fault.kind, Command.refusals]
  | layout => simp [command, Outcome.answer] at he

end Session

/-- What makes the table `t`, held under `name` in the session `s`, safe to use. A step on it
other than making a new table, whose copies name a source the session holds, refuses only in the
classes its documentation names. The bucket of a valid key is the remainder of the key's
checksum, which the key has, by the bucket count, and the remainder is defined. On a live table
the bucket indexes one of the row's buckets, the one the table reads. The length of a chain at an
integer index, the kind of index it is documented to take, is refused only by a released table
or as out of range, and in range reads the bucket's chain. On a live table the key listing fills
the buffer its count sizes, whatever the length of the chains; a release finds as many entries
as the table counts, so its check passes; and a store that adds a key either makes it the head
of an empty bucket or links it after the tail of a chain that has one. -/
structure Session.SafeToUse (s : Session) (name : Text) (t : Table) : Prop where
  documented : ∀ cmd : Command, (∀ count, cmd ≠ .create count) →
    (∀ source, cmd = .addAll source → (s.table? source).isSome) → ∀ e,
      (s.step ⟨some name, .table cmd⟩).2.reply = .error e → e.kind ∈ cmd.refusals
  bucket : ∀ key k, Key.check key = .ok k →
    key.checksum? = .ok k.checksum ∧
      Datum.reduce (.int k.checksum) (.int t.shape.toNat) = .ok (.int (t.bucketIndex k))
  index : t.freed = false → ∀ k : Key,
    t.bucketIndex k < (t.buckets.toList t.shape.toNat).length ∧
      (t.buckets.toList t.shape.toNat)[t.bucketIndex k]? = some (t.chainAt (t.bucketIndex k))
  chainIndex : ∀ n : Int, (t.freed = false → 0 ≤ n → n < t.shape.toNat →
      t.chainLength (.int n) = .ok (t.chainAt n.toNat).length) ∧
    ∀ e, t.chainLength (.int n) = .error e → e.kind ∈ ["FreedTableError", "IndexError"]
  keys : t.freed = false → ∃ ks, t.keys = .ok ks ∧ ks.length = t.count
  release : t.freed = false →
    (t.unlinkAll.map (·.1)).foldl (· + ·) 0 = t.count ∧
      t.free = .ok ⟨{ t with buckets := .empty, count := 0, freed := true }, [], none⟩
  tail : ∀ mem k v t' ev, t.set mem k v = .ok (t', ev) → ev.action = .adding →
    (t.chainAt (t.bucketIndex k) = [] ∧ t'.chainAt (t.bucketIndex k) = [(k, v)]) ∨
      ∃ e, (t.chainAt (t.bucketIndex k)).tail? = some e ∧
        t'.chainAt (t.bucketIndex k) = t.chainAt (t.bucketIndex k) ++ [(k, v)]

open Session in
/-- **Every table of a reachable session is safe to use**, as `SafeToUse` says, with any bucket
count and any number of entries in a chain. -/
theorem reachable_table_is_safe_to_use {s : Session} (hs : s.Reachable) {name : Text}
    {t : Table} (ht : s.table? name = some t) : s.SafeToUse name t := by
  have hwf : t.WellFormed := hs.wellFormed name t ht
  refine ⟨fun cmd hcmd hsrc e he => ?_, fun key k hk => ?_, fun _ k => ?_,
    Table.chainLength_of_int, fun hl => ?_, fun hl => ?_, fun mem k v t' ev hs' hadd => ?_⟩
  · rw [(step_on_table ht hcmd).1] at he
    exact command_error_documented hwf hsrc he
  · -- the checksum is a natural number and the count is at least one
    have hpos : (t.shape.toNat : Int) ≠ 0 := by have := t.shape.toNat_pos; omega
    refine ⟨Datum.checksum?_of_check hk, ?_⟩
    rw [Datum.reduce_int _ _ hpos, ← Int.ofNat_fmod]
    rfl
  · have hlt : t.bucketIndex k < t.shape.toNat := t.bucketOf_lt k
    refine ⟨by rw [Row.length_toList]; exact hlt, ?_⟩
    simp [Row.toList, hlt, Table.chainAt]
  · exact ⟨_, hwf.keys_eq hl, by rw [List.length_map, hwf.counted]; rfl⟩
  · exact ⟨by rw [Table.released_eq_size, hwf.counted], hwf.free_eq hl⟩
  · have happ := ((hwf.writesOneBucket hs').append fun hk => ?_).1
    · rw [happ]
      cases hc : t.chainAt (t.bucketIndex k) with
      | nil => exact .inl ⟨rfl, rfl⟩
      | cons e rest =>
        refine .inr ⟨(e :: rest).getLast (List.cons_ne_nil e rest), ?_, rfl⟩
        simp [Chain.tail?, List.getLast?_eq_some_getLast]
    · obtain ⟨-, ⟨i, w, hf, -, rfl⟩ | ⟨hf, -⟩⟩ := Table.set_eq_ok hs'
      · simp at hadd
      · rw [Table.bucketIndex_eq_bucketOf] at hk
        exact ((Chain.locate_eq_none_iff k _).1 hf) hk

/-- A table of one bucket holding two entries, a chain longer than one, is safe to use. -/
theorem crowded_table_is_safe_to_use :
    Session.crowded.Reachable ∧
      ∃ t, Session.crowded.table? (.ofString "t") = some t ∧ t.count = 2 ∧
        Session.crowded.SafeToUse (.ofString "t") t :=
  ⟨Session.Reachable.start.advance _, _, rfl, rfl,
    reachable_table_is_safe_to_use (Session.Reachable.start.advance _) rfl⟩

end Chaining
