import Chaining.Heap
import Chaining.Fault
import Chaining.Datum.Basic

/-!
# Questions about a loose chain

A chain can also be built directly from a caller's pairs, with no table around it and no check
that keys are texts or distinct: the pairs are laid out in a heap as entries linked in their
order (`Heap.lay`), and the question is answered by walking the links. Keys are then compared
as data are (`Datum.same`).

* `ChainQuery`: the five questions.
* `ChainReply`: their answers.
* `ChainQuery.answer`: the answer of a question about a chain; only the tail of a chain without
  entries is refused.
-/

namespace Chaining

/-- A question about a chain: its length, its entries from the head, its last entry, the first
entry with a key equal to the one given, or the cutting of every link with every entry
blanked. -/
inductive ChainQuery where
  | length
  | iter
  | tail
  | find (key : Datum)
  | unlink

/-- The answer to a question about a chain. A search answers the value of the entry it found, if
it found one, and the link where it ended; an unlinking answers the number of entries released and
each entry as it is left. -/
inductive ChainReply where
  | length (n : Nat)
  | entries (es : List (Datum × Datum))
  | tail (e : Datum × Datum)
  | search (value : Option Datum) (link : Nat)
  | unlinked (count : Nat) (after : List (Chain.Detached Datum Datum))

/-- The answer to question `q` about the chain `c`, laid out in a heap. A walk in it never
needs more passes than `c` has pairs. -/
def ChainQuery.answer (q : ChainQuery) (c : Chain Datum Datum) : Except Fault ChainReply :=
  let blank : Datum × Datum := (.str .empty, .str .empty)
  let m := Heap.lay blank c
  let head := Heap.layHead c
  let fuel := c.length
  let pair (a : Nat) : Datum × Datum := ((m a).key, (m a).value)
  match q with
  | .length => .ok (.length (m.count fuel head))
  | .iter => .ok (.entries ((m.walk fuel head).map pair))
  | .tail =>
    match head with
    | some a => .ok (.tail (pair (m.last fuel a)))
    | none => .error .noTail
  | .find key =>
    let (hit, link) := m.find key fuel head
    .ok (.search (hit.map fun a => (m a).value) link)
  | .unlink =>
    let r := Unlinking.onChain blank c
    .ok (.unlinked r.1 r.2)

end Chaining
