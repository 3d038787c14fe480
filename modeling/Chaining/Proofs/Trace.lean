import Chaining.Proofs.Commute

/-!
# Trace lines

While tracing is on, a step reports each store and each read it makes on a table, one line per
event: `Adding b-l` for a new key, linked at link `l` of bucket `b`, which was the chain's length;
`Overwriting b-l` for a key found at link `l`; `Getting b-l` for a key read there. A miss, a
refused step and every other operation report nothing, and nothing at all is reported while
tracing is off. A copy reports the lines its stores would report as steps of their own.

A key never moves once it is linked: a store overwrites in place or links after the tail, and
only a release takes entries away, after which the table reports nothing. So every later line
about a key gives the bucket and link of the line that added it.

* `Session.events`, `Session.eventsAlong`: the events of a step, and those a run reports on one
  table; `log_step`: a step's lines are its events' lines while tracing is on.
* `TraceEvent.SamePlace`: a later event about an added key reports the place it was added at.
* `Table.Placed`: the events reported so far agree with the table; kept by a store
  (`Placed.set`), a read (`Placed.read`), a command, a step and a run (`Placed.advance`).
* `Table.storeEvent_cases`: a store reports a new key at its chain's end, an old one in place.
* `runFrom_storeOf_setAll`: a run of stores, made one step each, against the run a copy makes.
* `step_set_traced`, `step_read_traced`, `step_copyInto_traced`: the lines of a store, of a read
  or membership test, and of a copy.
* `Session.TracesAsDocumented`, `reachable_traces_as_documented`: every reachable session.
-/

namespace Chaining

/-- An event that adds a key, and a later event about the same key: the later one does not add it
again, and reports the bucket and the link the first one gave. -/
def TraceEvent.SamePlace (ev ev' : TraceEvent) : Prop :=
  ev.action = .adding → ev'.key = ev.key →
    ev'.action ≠ .adding ∧ ev'.bucket = ev.bucket ∧ ev'.link = ev.link

namespace Session

/-- The events a step reports: those of the command it runs on the table it names. -/
def events (s : Session) (st : Step) : List TraceEvent :=
  match st.action, st.subject with
  | .table cmd, some name => (s.onTable name cmd).2.2
  | _, _ => []

/-- The events a run of steps reports on the table named `name`, in order. -/
def eventsAlong (s : Session) (name : Text) : List Step → List TraceEvent
  | [] => []
  | st :: rest =>
    (if st.subject = some name then s.events st else []) ++ (s.step st).1.eventsAlong name rest

/-- A step's trace lines are those of its events while tracing is on, and none otherwise. -/
theorem log_step (s : Session) (st : Step) :
    (s.step st).2.log = if s.tracing then (s.events st).map TraceEvent.line else [] := by
  obtain ⟨subject, action⟩ := st
  cases action <;> cases subject <;> rfl

end Session

/-! ## The place a store reports -/

namespace Chain

variable {κ ν : Type} [BEq κ] [LawfulBEq κ]

/-- After a store, the key holds the value where the search for it ended before. -/
theorem locate_store_self (k : κ) (v : ν) (c : Chain κ ν) :
    locate k (store k v c) = some (c.linkOf k, v) := by
  unfold store linkOf
  cases h : locate k c with
  | some p =>
    obtain ⟨l, w⟩ := p
    simp only
    rw [locate_overwrite h]
    simp
  | none =>
    simp only
    rw [locate_append, h]
    simp

end Chain

namespace Table

variable {t t' : Table} {mem : Memory} {k : Key} {v : Text} {evs : List TraceEvent}

theorem storeEvent_of_find_some {l : Nat} {w : Text} (h : t.find k = some (l, w)) (v : Text) :
    t.storeEvent k v = ⟨.overwriting, t.bucketOf k, l, k, v⟩ := by
  simp [storeEvent, h]

theorem storeEvent_of_find_none (h : t.find k = none) (v : Text) :
    t.storeEvent k v = ⟨.adding, t.bucketOf k, (t.chainAt (t.bucketOf k)).length, k, v⟩ := by
  simp [storeEvent, h]

@[simp] theorem storeEvent_key (k : Key) (v : Text) (t : Table) : (t.storeEvent k v).key = k := by
  unfold storeEvent
  split <;> rfl

@[simp] theorem storeEvent_bucket (k : Key) (v : Text) (t : Table) :
    (t.storeEvent k v).bucket = t.bucketOf k := by
  unfold storeEvent
  split <;> rfl

/-- A store reports a new key at the end of its bucket's chain, and a key it overwrites at the
link where the key stands. -/
theorem storeEvent_cases (k : Key) (v : Text) (t : Table) :
    t.storeEvent k v = ⟨.adding, t.bucketOf k, (t.chainAt (t.bucketOf k)).length, k, v⟩ ∨
      ∃ l, ((t.chainAt (t.bucketOf k)).map (·.1))[l]? = some k ∧
        t.storeEvent k v = ⟨.overwriting, t.bucketOf k, l, k, v⟩ := by
  cases hf : t.find k with
  | none => exact .inl (storeEvent_of_find_none hf v)
  | some p =>
    obtain ⟨l, w⟩ := p
    have hentry := Chain.getElem?_of_locate
      (show (t.chainAt (t.bucketOf k)).locate k = some (l, w) from hf)
    exact .inr ⟨l, by simp [hentry], storeEvent_of_find_some hf v⟩

/-- After a store, the key holds the value at the link the store reported. -/
theorem find_stored_self (k : Key) (v : Text) (t : Table) :
    (t.stored k v).find k = some ((t.storeEvent k v).link, v) := by
  have hlink : (t.storeEvent k v).link = (t.chainAt (t.bucketOf k)).linkOf k := by
    unfold Chain.linkOf
    cases hf : t.find k with
    | some p =>
      obtain ⟨l, w⟩ := p
      rw [storeEvent_of_find_some hf, show (t.chainAt (t.bucketOf k)).locate k = some (l, w) from hf]
    | none =>
      rw [storeEvent_of_find_none hf, show (t.chainAt (t.bucketOf k)).locate k = none from hf]
  show ((t.stored k v).chainAt (t.bucketOf k)).locate k = _
  rw [chainAt_stored, if_pos rfl, Chain.locate_store_self, hlink]

/-- The entries a table holds at the places its events gave them: every later event about an
added key reports that key's place, and, unless the table was released, each key an event added
still stands where the event placed it. -/
structure Placed (evs : List TraceEvent) (t : Table) : Prop where
  consistent : evs.Pairwise TraceEvent.SamePlace
  kept : t.freed = false → ∀ ev ∈ evs, ev.action = .adding →
    ev.bucket = t.bucketOf ev.key ∧ ∃ w, t.find ev.key = some (ev.link, w)

theorem placed_nil (t : Table) : Placed [] t := ⟨List.Pairwise.nil, by simp⟩

theorem Placed.of_freed (h : Placed evs t) (hf : t'.freed = true) : Placed evs t' :=
  ⟨h.consistent, fun hl => absurd hf (by simp [hl])⟩

/-- A new event on a live table that adds only a key the table lacks, and otherwise reports the
place its key has there, agrees with every event before it. -/
theorem Placed.samePlace (h : Placed evs t) (hl : t.freed = false) {ev' : TraceEvent}
    (hnew : ev'.action = .adding → t.find ev'.key = none)
    (hplace : ev'.action ≠ .adding →
      ev'.bucket = t.bucketOf ev'.key ∧ ∃ w, t.find ev'.key = some (ev'.link, w)) :
    ∀ ev ∈ evs, ev.SamePlace ev' := by
  intro ev hev hadd hkey
  obtain ⟨hb, w, hf⟩ := h.kept hl ev hev hadd
  rw [← hkey] at hb hf
  by_cases hadd' : ev'.action = .adding
  · -- the key was added before, so the table holds it and does not add it again
    rw [hnew hadd'] at hf
    cases hf
  · obtain ⟨hb', w', hf'⟩ := hplace hadd'
    rw [hf] at hf'
    obtain ⟨hlink, -⟩ := Prod.mk.inj (Option.some.inj hf')
    exact ⟨hadd', hb'.trans hb.symm, hlink.symm⟩

/-- A store keeps the events placed, its own event included. -/
theorem Placed.set (h : Placed evs t) {ev' : TraceEvent} (hs : t.set mem k v = .ok (t', ev')) :
    Placed (evs ++ [ev']) t' := by
  have hl := (set_eq_ok hs).1
  obtain ⟨rfl, rfl⟩ := set_eq_ok_stored hs
  refine ⟨List.pairwise_append.2 ⟨h.consistent, List.pairwise_singleton _ _, ?_⟩, ?_⟩
  · intro ev hev ev'' hev''
    rw [List.mem_singleton] at hev''
    subst hev''
    refine h.samePlace hl (fun hadd => ?_) (fun hadd => ?_) ev hev
    · cases hf : t.find k with
      | none => simp [hf]
      | some p => simp [storeEvent_of_find_some hf] at hadd
    · cases hf : t.find k with
      | none => simp [storeEvent_of_find_none hf] at hadd
      | some p => exact ⟨by simp, p.2, by simp [storeEvent_of_find_some hf, hf]⟩
  · intro hl' ev hev hadd
    rcases List.mem_append.1 hev with hev | hev
    · obtain ⟨hb, w, hf⟩ := h.kept hl ev hev hadd
      refine ⟨hb, ?_⟩
      by_cases hk : ev.key = k
      · rw [hk] at hf ⊢
        rw [find_stored_self, storeEvent_of_find_some hf]
        exact ⟨v, rfl⟩
      · rw [find_stored_of_ne (Ne.symm hk)]
        exact ⟨w, hf⟩
    · rw [List.mem_singleton] at hev
      subst hev
      exact ⟨by simp [bucketOf_stored], v, by rw [storeEvent_key, find_stored_self]⟩

/-- A read keeps the events placed, its own event included. -/
theorem Placed.read (h : Placed evs t) {ev' : TraceEvent} (hg : t.get k = .ok (some (v, ev'))) :
    Placed (evs ++ [ev']) t := by
  obtain ⟨hl, hact, hb, hkey, -, hf⟩ := Session.get_event hg
  have hget : ev'.action ≠ .adding := by rw [hact]; decide
  refine ⟨List.pairwise_append.2 ⟨h.consistent, List.pairwise_singleton _ _, ?_⟩, ?_⟩
  · intro ev hev ev'' hev''
    rw [List.mem_singleton] at hev''
    subst hev''
    exact h.samePlace hl (fun hadd => absurd hadd hget)
      (fun _ => ⟨by rw [hb, hkey], v, by rw [hkey]; exact hf⟩) ev hev
  · intro hl' ev hev hadd
    rcases List.mem_append.1 hev with hev | hev
    · exact h.kept hl' ev hev hadd
    · rw [List.mem_singleton] at hev
      subst hev
      exact absurd hadd hget

/-- A run of stores keeps the events placed, with the events of its stores. -/
theorem Placed.setAll : ∀ {es : List (Key × Text)} {t : Table} {evs : List TraceEvent},
    Placed evs t → Placed (evs ++ (Table.setAll mem es t).events) (Table.setAll mem es t).table
  | [], _, _, h => by simpa [Table.setAll] using h
  | (k, v) :: rest, t, evs, h => by
    cases hs : t.set mem k v with
    | error e => simpa [setAll_cons_error hs] using h
    | ok r =>
      obtain ⟨t', ev⟩ := r
      rw [setAll_cons_ok hs, ← List.singleton_append, ← List.append_assoc]
      exact (h.set hs).setAll

end Table

namespace Session

variable {s : Session}

/-- A command that leaves no table reports nothing, or the one read it made. -/
theorem command_events_eq_read {t : Table} {cmd : Command} (h : (s.command t cmd).table = none) :
    (s.command t cmd).events = [] ∨
      ∃ k v ev, t.get k = .ok (some (v, ev)) ∧ (s.command t cmd).events = [ev] := by
  cases cmd with
  | get key | contains key =>
    simp only [command]
    split
    · simp [Outcome.refuse]
    · simp [Outcome.answer]
    · rename_i v ev hget
      obtain ⟨k, -, hk⟩ := exists_of_bind_eq_ok hget
      exact .inr ⟨k, v, ev, hk, by simp [Outcome.answer]⟩
  | set key value =>
    simp only [command] at h ⊢
    split at h
    · simp [Outcome.refuse]
    · split at h
      · split at h
        · simp [Outcome.refuse]
        · simp at h
      · simp [Outcome.refuse]
  | addAll source =>
    simp only [command] at h ⊢
    split at h
    · simp [Outcome.refuse]
    · simp [Outcome.ofProgress] at h
  | free =>
    simp only [command] at h ⊢
    split at h
    · simp [Outcome.refuse]
    · simp [Outcome.ofProgress] at h
  | _ => simp [command, Outcome.answer]

end Session

namespace Table

variable {s : Session} {t : Table} {evs : List TraceEvent}

/-- A command on a well-formed table keeps its events placed, with the events it reports. -/
theorem Placed.command (ht : t.WellFormed) (h : Placed evs t) (cmd : Command) :
    ((s.command t cmd).table.getD t).Placed (evs ++ (s.command t cmd).events) := by
  cases hc : (s.command t cmd).table with
  | none =>
    rw [Option.getD_none]
    rcases Session.command_events_eq_read hc with he | ⟨k, v, ev, hg, he⟩
    · rw [he, List.append_nil]
      exact h
    · rw [he]
      exact h.read hg
  | some t' =>
    rw [Option.getD_some]
    rcases Session.command_table_eq_some hc with ⟨-, -, k, v, ev, -, hs, heq⟩ |
      ⟨-, src, -, -, heq⟩ | ⟨-, p, hp, heq⟩
    · rw [heq] at hc ⊢
      cases hc
      exact h.set hs
    · rw [heq] at hc ⊢
      simp only [Session.Outcome.ofProgress, Option.some.injEq] at hc ⊢
      subst hc
      cases hsrc : src.freed
      · rw [addAll_of_live _ hsrc]
        exact h.setAll
      · rw [addAll_of_freed _ hsrc]
        simpa using h
    · rw [heq] at hc ⊢
      simp only [Session.Outcome.ofProgress, Option.some.injEq] at hc ⊢
      subst hc
      obtain ⟨hl, -⟩ := free_eq_ok hp
      rw [ht.free_eq hl, Except.ok.injEq] at hp
      subst hp
      simpa using h.of_freed rfl

/-- A step that makes no new table under the name keeps the events placed on the table there,
with the events the step reports on it. -/
theorem Placed.step (hs : s.WellFormed) {name : Text} (ht : s.table? name = some t)
    (h : Placed evs t) (st : Step) (hr : ¬ st.Renews name) :
    ∃ t', (s.step st).1.table? name = some t' ∧
      t'.Placed (evs ++ if st.subject = some name then s.events st else []) := by
  obtain ⟨subject, action⟩ := st
  cases action with
  | trace on => exact ⟨t, ht, by simpa [Session.events] using h⟩
  | exhaust on => exact ⟨t, ht, by simpa [Session.events] using h⟩
  | table cmd =>
    cases subject with
    | none => exact ⟨t, ht, by simpa using h⟩
    | some n =>
      by_cases hn : n = name
      · subst hn
        by_cases hcreate : ∃ count, cmd = .create count
        · obtain ⟨count, rfl⟩ := hcreate
          cases hc : BucketCount.check count with
          | ok c => exact absurd ⟨count, c, rfl, hc⟩ hr
          | error e =>
            exact ⟨t, by simp [Session.step_table, Session.onTable, hc, ht],
              by simpa [Session.events, Session.onTable, hc] using h⟩
        · have hcmd : ∀ count, cmd ≠ .create count := fun count h => hcreate ⟨count, h⟩
          refine ⟨(s.command t cmd).table.getD t, ?_, ?_⟩
          · rw [(Session.step_on_table ht hcmd).2 _, if_pos rfl]
          · simp only [if_pos, Session.events, Session.onTable_of_table? ht hcmd]
            exact h.command (hs n t ht) cmd
      · refine ⟨t, ?_, by simpa [hn] using h⟩
        rw [Session.step_table, Session.table?_onTable_of_ne (Ne.symm hn)]
        exact ht

/-- A run that makes no new table under the name keeps the events placed on the table there. -/
theorem Placed.advance (hs : s.WellFormed) {name : Text} (ht : s.table? name = some t)
    (h : Placed evs t) {sts : List Step} (hsts : ∀ st ∈ sts, ¬ st.Renews name) :
    ∃ t', (s.advance sts).table? name = some t' ∧ t'.Placed (evs ++ s.eventsAlong name sts) := by
  induction sts generalizing s t evs with
  | nil => exact ⟨t, ht, by simpa [Session.eventsAlong] using h⟩
  | cons st rest ih =>
    obtain ⟨t₁, ht₁, h₁⟩ := h.step hs ht st (hsts st List.mem_cons_self)
    obtain ⟨t', ht', h'⟩ := ih (hs.step st) ht₁ h₁ fun st' h => hsts st' (List.mem_cons_of_mem _ h)
    refine ⟨t', ht', ?_⟩
    rw [Session.eventsAlong, ← List.append_assoc]
    exact h'

end Table

/-- A release reports nothing. -/
theorem Table.free_events {t : Table} {p : Table.Progress} (h : t.free = .ok p) : p.events = [] := by
  unfold Table.free at h
  split at h
  · cases h
  · simp only at h
    split at h <;> (cases h; rfl)

namespace Session

variable {s : Session}

theorem step_log_on_table {name : Text} {t : Table} (ht : s.table? name = some t) {cmd : Command}
    (hcmd : ∀ count, cmd ≠ .create count) :
    (s.step ⟨some name, .table cmd⟩).2.log =
      if s.tracing then (s.command t cmd).events.map TraceEvent.line else [] := by
  rw [log_step]
  show (if s.tracing then ((s.onTable name cmd).2.2).map TraceEvent.line else []) = _
  rw [onTable_of_table? ht hcmd]

/-- A read and a membership test of a key on a live table report the key's place and value, if
the table holds it, and nothing otherwise. -/
theorem command_read_events {t : Table} (hl : t.freed = false) {key : Datum} {k : Key}
    (hk : Key.check key = .ok k) :
    (s.command t (.get key)).events =
        ((t.find k).map fun p => (⟨.getting, t.bucketOf k, p.1, k, p.2⟩ : TraceEvent)).toList ∧
      (s.command t (.contains key)).events =
        ((t.find k).map fun p => (⟨.getting, t.bucketOf k, p.1, k, p.2⟩ : TraceEvent)).toList := by
  have hlive : liveKey t key = .ok k := liveKey_eq_ok.2 ⟨hl, hk⟩
  cases hf : t.find k <;>
    simp [command, hlive, Table.get, hl, hf, bind, Except.bind, Outcome.answer]

/-- Every step but a store, a read, a membership test and a copy reports nothing. -/
theorem events_quiet {st : Step} (hset : ∀ key value, st.action ≠ .table (.set key value))
    (hget : ∀ key, st.action ≠ .table (.get key))
    (hcontains : ∀ key, st.action ≠ .table (.contains key))
    (hcopy : ∀ source, st.action ≠ .table (.addAll source)) : s.events st = [] := by
  obtain ⟨subject, action⟩ := st
  cases action with
  | trace on => rfl
  | exhaust on => rfl
  | table cmd =>
    cases subject with
    | none => rfl
    | some name =>
      simp only [events, Session.onTable]
      split
      · split <;> rfl
      · split
        · rfl
        · rename_i t _
          have hc : (s.command t cmd).events = [] := by
            cases cmd with
            | set key value => exact absurd rfl (hset key value)
            | get key => exact absurd rfl (hget key)
            | contains key => exact absurd rfl (hcontains key)
            | addAll source => exact absurd rfl (hcopy source)
            | free =>
              simp only [command]
              split
              · rfl
              · rename_i p hp
                exact Table.free_events hp
            | _ => rfl
          split <;> exact hc

/-- When the stores of a run stop, after the stores of the first `j` entries, the same stores made
as steps of their own on the table under `name` go through one by one, trace the same lines, and
the next one is refused for the same cause. -/
theorem runFrom_storeOf_setAll {name : Text} : ∀ {s : Session} {t : Table} (es : List (Key × Text)),
    s.table? name = some t →
    (∀ a ∈ runFrom s ((es.take (Table.setAll s.memory es t).events.length).map (Step.storeOf name)),
      ∃ b, a.reply = .ok (.flag b)) ∧
    (runFrom s ((es.take (Table.setAll s.memory es t).events.length).map
        (Step.storeOf name))).flatMap (·.log) =
      (if s.tracing then (Table.setAll s.memory es t).events.map TraceEvent.line else []) ∧
    ((Table.setAll s.memory es t).fault = none →
      (Table.setAll s.memory es t).events.length = es.length) ∧
    ∀ e, (Table.setAll s.memory es t).fault = some e →
      ∃ ej, es[(Table.setAll s.memory es t).events.length]? = some ej ∧
        ((s.advance ((es.take (Table.setAll s.memory es t).events.length).map
          (Step.storeOf name))).step (Step.storeOf name ej)).2.reply = .error e
  | s, t, [], _ => by simp [Table.setAll, runFrom]
  | s, t, (k, v) :: rest, ht => by
    cases hs : t.set s.memory k v with
    | error err =>
      rw [Table.setAll_cons_error hs]
      refine ⟨by simp [runFrom], by simp [runFrom], by simp, fun e he => ⟨(k, v), rfl, ?_⟩⟩
      simp only [Option.some.injEq] at he
      subst he
      exact (step_storeOf_refused ht hs).1
    | ok r =>
      obtain ⟨t', ev⟩ := r
      have hstep : s.step (Step.storeOf name (k, v)) =
          (s.store name t', ⟨.ok (.flag (ev.action == .adding)),
            if s.tracing then [ev.line] else [], some (t'.count, t'.freed)⟩) :=
        step_set_eq ht (Key.check_text k) rfl hs
      have ht' : (s.store name t').table? name = some t' := by rw [table?_store, if_pos rfl]
      obtain ⟨hok, hlog, hlen, hstop⟩ := runFrom_storeOf_setAll rest ht'
      rw [store_memory] at hok hlog hlen hstop
      rw [store_tracing] at hlog
      rw [Table.setAll_cons_ok hs]
      simp only [List.length_cons, List.take_succ_cons, List.map_cons]
      refine ⟨fun a ha => ?_, ?_, fun hf => by simpa using hlen hf, fun e he => ?_⟩
      · rw [runFrom_cons, hstep] at ha
        rcases List.mem_cons.1 ha with rfl | ha
        · exact ⟨_, rfl⟩
        · exact hok a ha
      · rw [runFrom_cons, hstep, List.flatMap_cons, hlog]
        split <;> simp
      · obtain ⟨ej, hej, hrefused⟩ := hstop e he
        exact ⟨ej, by simpa using hej, by rw [advance, hstep]; exact hrefused⟩

/-- A store that answers whether its key was new reports one line: it adds the key at the link
that was the length of its bucket's chain, or overwrites it at the link where it stands, and the
key then stands at that link with its value. -/
theorem step_set_traced {name : Text} {t : Table} (ht : s.table? name = some t)
    {key value : Datum} {b : Bool} (h : (s.step (Step.set name key value)).2.reply = .ok (.flag b)) :
    ∃ k v l t', Key.check key = .ok k ∧ value = .str v ∧
      (s.step (Step.set name key value)).2.log =
        (if s.tracing then
          [TraceEvent.line ⟨if b then .adding else .overwriting, t.bucketIndex k, l, k, v⟩]
        else []) ∧
      (b = true → l = (t.chainAt (t.bucketIndex k)).length) ∧
      (b = false → ((t.chainAt (t.bucketIndex k)).map (·.1))[l]? = some k) ∧
      (s.step (Step.set name key value)).1.table? name = some t' ∧
      (t'.chainAt (t.bucketIndex k))[l]? = some (k, v) := by
  obtain ⟨k, v, hk, hv, hset⟩ := step_set_reply_ok ht h
  have hstep := step_set_eq ht hk hv hset
  have hplace := Chain.getElem?_of_locate (Table.find_stored_self k v t)
  have ht' : (s.step (Step.set name key value)).1.table? name = some (t.stored k v) := by
    rw [hstep, table?_store, if_pos rfl]
  rw [hstep, Except.ok.injEq, Reply.flag.injEq] at h
  rcases Table.storeEvent_cases k v t with hev | ⟨l, hl, hev⟩
  · rw [hev] at h hplace
    subst h
    exact ⟨k, v, _, _, hk, hv, by rw [hstep, hev]; rfl, fun _ => rfl,
      (fun h => by simp at h), ht', hplace⟩
  · rw [hev] at h hplace
    subst h
    exact ⟨k, v, l, _, hk, hv, by rw [hstep, hev]; rfl, (fun h => by simp at h),
      fun _ => hl, ht', hplace⟩

/-- A read and a membership test on a live table report one line for a key the table holds,
getting its value at its link, and nothing for a key the table lacks. -/
theorem step_read_traced {name : Text} {t : Table} (hwf : t.WellFormed)
    (ht : s.table? name = some t) (hl : t.freed = false) {key : Datum} {k : Key}
    (hk : Key.check key = .ok k) :
    (∀ v, t.lookup k = some v → ∃ l, ((t.chainAt (t.bucketIndex k)).map (·.1))[l]? = some k ∧
      (s.step ⟨some name, .table (.get key)⟩).2.log =
        (if s.tracing then [TraceEvent.line ⟨.getting, t.bucketIndex k, l, k, v⟩] else []) ∧
      (s.step ⟨some name, .table (.contains key)⟩).2.log =
        (if s.tracing then [TraceEvent.line ⟨.getting, t.bucketIndex k, l, k, v⟩] else [])) ∧
    (t.lookup k = none → (s.step ⟨some name, .table (.get key)⟩).2.log = [] ∧
      (s.step ⟨some name, .table (.contains key)⟩).2.log = []) := by
  have hcmd : ∀ cmd, (cmd = Command.get key ∨ cmd = .contains key) →
      ∀ count, cmd ≠ .create count := by
    rintro _ (rfl | rfl) _ h <;> cases h
  obtain ⟨hget, hcont⟩ := command_read_events (s := s) hl hk
  rw [step_log_on_table ht (hcmd _ (.inl rfl)), step_log_on_table ht (hcmd _ (.inr rfl)), hget,
    hcont, hwf.lookup_eq, Table.bucketIndex_eq_bucketOf]
  refine ⟨fun v hv => ?_, fun hv => ?_⟩
  · obtain ⟨⟨l, w⟩, hf, rfl⟩ := Option.map_eq_some_iff.1 hv
    have hentry := Chain.getElem?_of_locate
      (show (t.chainAt (t.bucketOf k)).locate k = some (l, w) from hf)
    exact ⟨l, by simp [hentry], by simp [hf], by simp [hf]⟩
  · rw [Option.map_eq_none_iff] at hv
    simp [hv]

/-- A copy reports the lines of the stores of the entries it copied, in the order of the source's
key listing, each made as a step of its own and going through: every entry if the copy goes
through, and otherwise the entries before the one whose store is refused. -/
theorem step_copyInto_traced {name source : Text} {t u : Table} (hwf : u.WellFormed)
    (ht : s.table? name = some t) (hu : s.table? source = some u) :
    (u.freed = false → u.keys = .ok (u.entries.map (·.1))) ∧ ∃ j,
      (∀ a ∈ runFrom s ((u.entries.take j).map (Step.storeOf name)),
        ∃ b, a.reply = .ok (.flag b)) ∧
      (s.step (Step.copyInto name source)).2.log =
        (runFrom s ((u.entries.take j).map (Step.storeOf name))).flatMap (·.log) ∧
      ((s.step (Step.copyInto name source)).2.reply = .ok .nothing → j = u.entries.length) ∧
      ∀ e, (s.step (Step.copyInto name source)).2.reply = .error e → u.freed = true ∨
        ∃ ej, u.entries[j]? = some ej ∧
          ((s.advance ((u.entries.take j).map (Step.storeOf name))).step
            (Step.storeOf name ej)).2.reply = .error e := by
  refine ⟨hwf.keys_eq, ?_⟩
  have hlog : (s.step (Step.copyInto name source)).2.log =
      if s.tracing then (Table.addAll s.memory u t).events.map TraceEvent.line else [] := by
    rw [Step.copyInto, step_log_on_table ht (fun _ h => by cases h)]
    simp [command, hu, Outcome.ofProgress]
  obtain ⟨hreply, -⟩ := step_copyInto ht hu
  cases hf : u.freed
  · rw [Table.addAll_of_live _ hf] at hlog hreply
    obtain ⟨hok, hlogs, hlen, hstop⟩ := runFrom_storeOf_setAll u.entries ht
    refine ⟨_, hok, hlog.trans hlogs.symm, fun h => hlen ?_, fun e he => .inr (hstop e ?_)⟩
    · rw [hreply] at h
      cases hfault : (Table.setAll s.memory u.entries t).fault <;> simp [hfault] at h ⊢
    · rw [hreply] at he
      cases hfault : (Table.setAll s.memory u.entries t).fault <;> simp_all
  · refine ⟨0, by simp [runFrom], by simp [hlog, Table.addAll_of_freed _ hf, runFrom], ?_,
      fun e _ => .inl rfl⟩
    rw [hreply, Table.addAll_of_freed _ hf]
    simp

end Session

/-- How a session traces its steps. A step's lines are the lines of its events while tracing is
on, and there are none while it is off. A store that answers whether its key was new reports one
line: it adds the key at the link that was the length of its bucket's chain, or overwrites it at
the link where it stands, and either way the key then stands at that link with its value. A read
or a membership test on a live table reports one line for a key the table holds, getting its
value at its link, and none for a key the table lacks. A copy reports the lines of the stores of
the entries it copied, in the order of the source's key listing, each made as a step of its own
and going through: every entry if the copy goes through, and otherwise the entries before the one
whose store is refused. A refused step other than a copy, and every step other than a store, a
read, a membership test and a copy, reports nothing. Over any run that makes no new table under a
name, every event on that table about a key an earlier event added reports the bucket and link
that event gave it, and never adds the key again. -/
structure Session.TracesAsDocumented (s : Session) : Prop where
  log : ∀ st, (s.step st).2.log = if s.tracing then (s.events st).map TraceEvent.line else []
  off : s.tracing = false → ∀ st, (s.step st).2.log = []
  store : ∀ name t, s.table? name = some t → ∀ key value b,
    (s.step (Step.set name key value)).2.reply = .ok (.flag b) →
    ∃ k v l t', Key.check key = .ok k ∧ value = .str v ∧
      (s.step (Step.set name key value)).2.log =
        (if s.tracing then
          [TraceEvent.line ⟨if b then .adding else .overwriting, t.bucketIndex k, l, k, v⟩]
        else []) ∧
      (b = true → l = (t.chainAt (t.bucketIndex k)).length) ∧
      (b = false → ((t.chainAt (t.bucketIndex k)).map (·.1))[l]? = some k) ∧
      (s.step (Step.set name key value)).1.table? name = some t' ∧
      (t'.chainAt (t.bucketIndex k))[l]? = some (k, v)
  read : ∀ name t, s.table? name = some t → t.freed = false → ∀ key k, Key.check key = .ok k →
    (∀ v, t.lookup k = some v → ∃ l, ((t.chainAt (t.bucketIndex k)).map (·.1))[l]? = some k ∧
      (s.step ⟨some name, .table (.get key)⟩).2.log =
        (if s.tracing then [TraceEvent.line ⟨.getting, t.bucketIndex k, l, k, v⟩] else []) ∧
      (s.step ⟨some name, .table (.contains key)⟩).2.log =
        (if s.tracing then [TraceEvent.line ⟨.getting, t.bucketIndex k, l, k, v⟩] else [])) ∧
    (t.lookup k = none → (s.step ⟨some name, .table (.get key)⟩).2.log = [] ∧
      (s.step ⟨some name, .table (.contains key)⟩).2.log = [])
  copy : ∀ name source t u, s.table? name = some t → s.table? source = some u →
    (u.freed = false → u.keys = .ok (u.entries.map (·.1))) ∧ ∃ j,
      (∀ a ∈ Session.runFrom s ((u.entries.take j).map (Step.storeOf name)),
        ∃ b, a.reply = .ok (.flag b)) ∧
      (s.step (Step.copyInto name source)).2.log =
        (Session.runFrom s ((u.entries.take j).map (Step.storeOf name))).flatMap (·.log) ∧
      ((s.step (Step.copyInto name source)).2.reply = .ok .nothing → j = u.entries.length) ∧
      ∀ e, (s.step (Step.copyInto name source)).2.reply = .error e → u.freed = true ∨
        ∃ ej, u.entries[j]? = some ej ∧
          ((s.advance ((u.entries.take j).map (Step.storeOf name))).step
            (Step.storeOf name ej)).2.reply = .error e
  refused : ∀ st : Step, (∀ source, st.action ≠ .table (.addAll source)) → ∀ e,
    (s.step st).2.reply = .error e → (s.step st).2.log = []
  quiet : ∀ st : Step, (∀ key value, st.action ≠ .table (.set key value)) →
    (∀ key, st.action ≠ .table (.get key)) → (∀ key, st.action ≠ .table (.contains key)) →
    (∀ source, st.action ≠ .table (.addAll source)) → (s.step st).2.log = []
  places : ∀ name t, s.table? name = some t → ∀ sts : List Step, (∀ st ∈ sts, ¬ st.Renews name) →
    (s.eventsAlong name sts).Pairwise TraceEvent.SamePlace

open Session in
/-- **Trace lines are as documented.** Every session a run reaches traces its steps as
`TracesAsDocumented` says. -/
theorem reachable_traces_as_documented {s : Session} (hs : s.Reachable) : s.TracesAsDocumented := by
  have hwf := hs.wellFormed
  refine ⟨log_step s, fun hoff st => by simp [log_step, hoff],
    fun name t ht _ _ _ h => step_set_traced ht h,
    fun name t ht hl _ _ hk => step_read_traced (hwf name t ht) ht hl hk,
    fun name source t u ht hu => step_copyInto_traced (hwf source u hu) ht hu,
    fun st hst e he => (step_refused hwf hst he).2,
    fun st h₁ h₂ h₃ h₄ => by simp [log_step, events_quiet h₁ h₂ h₃ h₄], ?_⟩
  -- the places are those of the events reported since the table was made, none at the start
  intro name t ht sts hsts
  obtain ⟨t', -, hp⟩ := (Table.placed_nil t).advance hwf ht hsts
  simpa using hp.consistent

/-- A session holding a table of four buckets, just made under the name "t", with tracing on. -/
def Session.tracingFresh : Session :=
  Session.start.advance
    [⟨some (.ofString "t"), .table (.create (some (.int 4)))⟩, ⟨none, .trace (.bool true)⟩]

/-- A session tracing a table just made traces as documented. -/
theorem tracing_fresh_table_traces_as_documented :
    Session.tracingFresh.Reachable ∧ Session.tracingFresh.TracesAsDocumented :=
  ⟨Session.Reachable.start.advance _, reachable_traces_as_documented (Session.Reachable.start.advance _)⟩

end Chaining
