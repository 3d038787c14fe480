import Chaining.Table.Ops
import Chaining.Table.View
import Chaining.Hashing

/-!
# Sessions

A session runs steps against tables held under names. It starts with no table, tracing off and
memory available. Each step gets an answer, and a step that is refused does not stop the ones
after it.

A step on a table takes its arguments as the caller passes them and checks them in the table's
order: a released table first, then the key, then the value. The answer carries the step's
result or refusal, the trace lines of its events while tracing is on, and the entry count and
mark of the table the step names, read after the step, when that table exists.

* `Command`, `Action`, `Step`: what a step asks.
* `Reply`, `Answer`: what it gets.
* `Session`, `Session.step`, `Session.run`.
-/

namespace Chaining

/-- What a step asks of the table it names. `create` makes a table with the count given, or the
standard one, in place of any table of the same name; `addAll source` stores every entry of the
table named `source`; `dump name` lists the table under the heading `name`. -/
inductive Command where
  | create (count : Option Datum)
  | set (key value : Datum)
  | get (key : Datum)
  | contains (key : Datum)
  | len
  | keys
  | bucketIndex (key : Datum)
  | chainLength (index : Datum)
  | addAll (source : Text)
  | free
  | dump (name : Datum)
  | layout

/-- What a step does: a command on the table it names, or one of the two switches, tracing and
running out of memory, set by the truth of a datum. -/
inductive Action where
  | table (command : Command)
  | trace (on : Datum)
  | exhaust (on : Datum)

/-- A step: the name of the table it concerns, if it names one, and what it does. -/
structure Step where
  subject : Option Text
  action : Action

/-- The result of a step that is not refused. -/
inductive Reply where
  | nothing
  | flag (b : Bool)
  | number (n : Nat)
  | text (t : Text)
  | keys (ks : List Key)
  | layout (l : Layout)

/-- The answer to a step: its result or refusal, its trace lines, and the entry count and mark of
the table the step names, read after the step, when that table exists. -/
structure Answer where
  reply : Except Fault Reply
  log : List Text
  status : Option (Nat × Bool)

/-- The tables of a session by name, in order of first creation, and its two switches: whether
events are traced, and whether new entries can be made. -/
structure Session where
  tables : List (Text × Table)
  tracing : Bool
  memory : Memory

namespace Session

/-- The state a session starts in. -/
def start : Session := ⟨[], false, .available⟩

/-- The table named `name`. -/
def table? (s : Session) (name : Text) : Option Table := (s.tables.find? (·.1 == name)).map (·.2)

/-- The session with `t` under `name`, in the place of the table of that name if there is one. -/
def store (s : Session) (name : Text) (t : Table) : Session :=
  if s.tables.any (·.1 == name) then
    { s with tables := s.tables.map fun e => if e.1 == name then (name, t) else e }
  else { s with tables := s.tables ++ [(name, t)] }

/-- The outcome of a command: the table as it is left, when the command changed it, the reply,
and the events. -/
structure Outcome where
  table : Option Table
  reply : Except Fault Reply
  events : List TraceEvent

/-- An outcome that leaves the table as it was. -/
def Outcome.answer (r : Except Fault Reply) (events : List TraceEvent := []) : Outcome :=
  ⟨none, r, events⟩

/-- A refusal that leaves the table as it was. -/
def Outcome.refuse (e : Fault) : Outcome := ⟨none, .error e, []⟩

/-- The outcome of an operation that wrote step by step: the table as it was left, and the
refusal that stopped it, if one did. -/
def Outcome.ofProgress (p : Table.Progress) : Outcome :=
  ⟨some p.table, match p.fault with | some e => .error e | none => .ok .nothing, p.events⟩

/-- The key a datum stands for, on a live table. -/
def liveKey (t : Table) (key : Datum) : Except Fault Key :=
  if t.freed then .error .freed else Key.check key

/-- Run a command other than `create` on the table `t`, with the session `s` for the source of
`addAll` and for memory. -/
def command (s : Session) (t : Table) : Command → Outcome
  | .create _ => .answer (.ok .nothing)
  | .set key value =>
    match liveKey t key with
    | .error e => .refuse e
    | .ok k =>
      match value with
      | .str v =>
        match t.set s.memory k v with
        | .error e => .refuse e
        | .ok (t', ev) => ⟨some t', .ok (.flag (ev.action == .adding)), [ev]⟩
      | d => .refuse (.valueNotText d.typeName)
  | .get key =>
    match liveKey t key >>= fun k => t.get k with
    | .error e => .refuse e
    | .ok none => .answer (.ok .nothing)
    | .ok (some (v, ev)) => .answer (.ok (.text v)) [ev]
  | .contains key =>
    match liveKey t key >>= fun k => t.get k with
    | .error e => .refuse e
    | .ok none => .answer (.ok (.flag false))
    | .ok (some (_, ev)) => .answer (.ok (.flag true)) [ev]
  | .len => .answer ((t.len).map .number)
  | .keys => .answer ((t.keys).map .keys)
  | .bucketIndex key => .answer ((Key.check key).map fun k => .number (t.bucketIndex k))
  | .chainLength index => .answer ((t.chainLength index).map .number)
  | .addAll source =>
    match s.table? source with
    | none => .refuse (.unknownTable source)
    | some src => .ofProgress (Table.addAll s.memory src t)
  | .free =>
    match t.free with
    | .error e => .refuse e
    | .ok p => .ofProgress p
  | .dump name => .answer ((t.dump name).map .text)
  | .layout => .answer (.ok (.layout t.layout))

/-- Run a command on the table named `name`. -/
def onTable (s : Session) (name : Text) : Command → Session × Except Fault Reply × List TraceEvent
  | .create count =>
    match BucketCount.check count with
    | .error e => (s, .error e, [])
    | .ok c => (s.store name (Table.create c), .ok .nothing, [])
  | cmd =>
    match s.table? name with
    | none => (s, .error (.unknownTable name), [])
    | some t =>
      let o := s.command t cmd
      match o.table with
      | some t' => (s.store name t', o.reply, o.events)
      | none => (s, o.reply, o.events)

/-- Run one step: the session after it and the answer. -/
def step (s : Session) (st : Step) : Session × Answer :=
  let (s', reply, events) : Session × Except Fault Reply × List TraceEvent :=
    match st.action, st.subject with
    | .table cmd, some name => s.onTable name cmd
    | .table _, none => (s, .error .noSubject, [])
    | .trace on, _ => ({ s with tracing := on.truthy }, .ok .nothing, [])
    | .exhaust on, _ =>
      ({ s with memory := if on.truthy then .exhausted else .available }, .ok .nothing, [])
  let log := if s.tracing then events.map TraceEvent.line else []
  let status := st.subject.bind fun name => (s'.table? name).map fun t => (t.count, t.freed)
  (s', ⟨reply, log, status⟩)

/-- Run steps in order from `s`: the answer to each. -/
def runFrom : Session → List Step → List Answer
  | _, [] => []
  | s, st :: rest =>
    let (s', a) := s.step st
    a :: runFrom s' rest

/-- Run steps in order from the start of a session. -/
def run (steps : List Step) : List Answer := runFrom start steps

end Session

end Chaining
