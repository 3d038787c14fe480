import Chaining.Key

/-!
# Trace events

While tracing is on, a table reports each entry it adds, overwrites or reads, with the place of
the entry: its bucket and its link in that bucket's chain. Key and value appear as they are,
between single quotes and without escapes.

* `TraceAction`, `TraceEvent`: what happened and where.
* `TraceEvent.line`: the line a trace shows for it, such as `Adding 3-0: 'k'->'v'`.
-/

namespace Chaining

/-- What happened to an entry: a new entry was linked at the tail of its chain, an entry took a
new value, or an entry was read. -/
inductive TraceAction where
  | adding
  | overwriting
  | getting
deriving DecidableEq, Repr

/-- The word a trace line starts with. -/
def TraceAction.word : TraceAction → String
  | adding => "Adding"
  | overwriting => "Overwriting"
  | getting => "Getting"

/-- One reported event: the action, the entry's bucket and its link in the bucket's chain, its
key, and its value after the event. -/
structure TraceEvent where
  action : TraceAction
  bucket : Nat
  link : Nat
  key : Key
  value : Text

/-- The trace line of the event: `<Action> <bucket>-<link>: '<key>'->'<value>'`. -/
def TraceEvent.line (e : TraceEvent) : Text :=
  .ofString (e.action.word ++ " " ++ Numeral.int e.bucket ++ "-" ++ Numeral.int e.link ++ ": '") ++
    e.key.text ++ .ofString "'->'" ++ e.value ++ .ofString "'"

example : (TraceEvent.line ⟨.adding, 3, 0, .ofString "k", .ofString "v"⟩) = .ofString "Adding 3-0: 'k'->'v'" := by
  decide

end Chaining
