import Chaining.Datum.Basic
import Chaining.Text.Literal
import Chaining.Decimal.Notation

/-!
# How a datum is shown

A datum is shown in two ways. Its *literal* is how it is written back: `None`, `True`, `False`,
integers in base ten, floats by `Binary64.toText`, texts as quoted literals, lists as
`[a, b]` and dictionaries as `{'k': v}`, items and keys written as literals. Its *display* is
the text itself for a text and the literal for every other kind; names and indexes in messages
and listings are shown by their display.

* `Datum.literal`, `Datum.display`.
-/

namespace Chaining

namespace Datum

mutual

/-- How the datum is written back: texts quoted, lists and dictionaries with their items
written the same way. -/
def literal : Datum → Text
  | .none => .ofString "None"
  | .bool b => .ofString (if b then "True" else "False")
  | .int n => .ofString (Numeral.int n)
  | .float x => .ofString (Binary64.ofFloat x).toText
  | .str t => t.literal
  | .list items => .ofString "[" ++ literalItems items ++ .ofString "]"
  | .dict entries => .ofString "\x7b" ++ literalEntries entries ++ .ofString "\x7d"

/-- The literals of the items, with a comma and a space between each two. -/
def literalItems : List Datum → Text
  | [] => .empty
  | [d] => literal d
  | d :: ds => literal d ++ .ofString ", " ++ literalItems ds

/-- The entries as `key: value`, keys quoted, with a comma and a space between each two. -/
def literalEntries : List (Text × Datum) → Text
  | [] => .empty
  | [(k, v)] => k.literal ++ .ofString ": " ++ literal v
  | (k, v) :: rest => k.literal ++ .ofString ": " ++ literal v ++ .ofString ", " ++ literalEntries rest

end

/-- How the datum is shown in a message or listing: a text as itself, any other datum by its
literal. -/
def display : Datum → Text
  | .str t => t
  | d => d.literal

example : (Datum.list [.int 1, .str (.ofString "a"), .none]).display = .ofString "[1, 'a', None]" := by
  decide +kernel

example : (Datum.bool false).display = .ofString "False" := by decide

end Datum

end Chaining
