import Chaining.Chain

/-!
# Entries in a heap

A chain is made of entry objects, each holding a key, a value and a link to its successor. Here
a heap gives the entry at every address, and the routines on chains walk it one link at a time,
as loops. A loop over links ends only on a chain that ends, so each routine is given the number of
passes it may make (`fuel`); on a chain of `n` entries `n` passes are enough, and
`Chaining.Proofs.Walk` says what each routine gives on every chain.

* `Node`, `Heap`: an entry object, and the entries at their addresses.
* `Heap.walk`: the entries met from a head on, in order.
* `Heap.scan`, `Heap.find`: the first entry with a given key, with its link.
* `Heap.last`: the entry where the walk to the tail stops.
* `Heap.count`: the number of entries met.
* `Unlinking`, `Unlinking.run`: the loop that cuts every link and blanks every entry, with the
  successor saved before each entry is cut loose; `Unlinking.onChain`: the loop on a list of
  pairs laid out as a chain.
* `Heap.lay`, `Heap.layHead`: a list of pairs laid out as one chain at addresses `0, 1, …`.
-/

namespace Chaining

/-- An entry object: its key, its value, and the address of its successor if it has one. -/
structure Node (κ ν : Type) where
  key : κ
  value : ν
  next : Option Nat
deriving DecidableEq, Repr

/-- A heap of entry objects: the entry at each address. -/
abbrev Heap (κ ν : Type) := Nat → Node κ ν

namespace Heap

variable {κ ν : Type}

/-- The heap with the entry at `a` replaced by `e`. -/
def write (m : Heap κ ν) (a : Nat) (e : Node κ ν) : Heap κ ν :=
  fun b => if b = a then e else m b

@[simp] theorem write_self (m : Heap κ ν) (a : Nat) (e : Node κ ν) : m.write a e a = e := by
  simp [write]

@[simp] theorem write_of_ne (m : Heap κ ν) {a b : Nat} (e : Node κ ν) (h : b ≠ a) :
    m.write a e b = m b := by
  simp [write, h]

/-- The entries met walking from `p` along the links, for at most `fuel` of them. -/
def walk (m : Heap κ ν) : Nat → Option Nat → List Nat
  | 0, _ => []
  | _ + 1, none => []
  | fuel + 1, some a => a :: m.walk fuel (m a).next

/-- The number of entries met walking from `p`. -/
def count (m : Heap κ ν) (fuel : Nat) (p : Option Nat) : Nat := (m.walk fuel p).length

section Search

variable [BEq κ]

/-- A search along the entries `es` for the key `k`, with the link counted from `link`: the
first entry whose key equals `k` (the stored key on the left) and its link, or no entry and the
link past the last one. -/
def scan (m : Heap κ ν) (k : κ) : List Nat → Nat → Option Nat × Nat
  | [], link => (none, link)
  | a :: rest, link => if (m a).key == k then (some a, link) else m.scan k rest (link + 1)

/-- The search for `k` among the entries met from `p`, its link counted from `0`. -/
def find (m : Heap κ ν) (k : κ) (fuel : Nat) (p : Option Nat) : Option Nat × Nat :=
  m.scan k (m.walk fuel p) 0

end Search

/-- The walk from the entry at `a` to the tail, for at most `fuel` links: the entry where it
stops, the first with no successor. -/
def last (m : Heap κ ν) : Nat → Nat → Nat
  | 0, a => a
  | fuel + 1, a =>
    match (m a).next with
    | none => a
    | some b => m.last fuel b

/-- The pairs laid out as one chain: the `i`-th pair at address `i`, linked to address
`i + 1` when a pair follows it. Every other address holds `blank`, linked to nothing. -/
def lay (blank : κ × ν) (pairs : Chain κ ν) : Heap κ ν := fun a =>
  match pairs[a]? with
  | some e => ⟨e.1, e.2, if a + 1 < pairs.length then some (a + 1) else none⟩
  | none => ⟨blank.1, blank.2, none⟩

/-- The head of the chain `lay` makes: address `0`, unless there are no pairs. -/
def layHead (pairs : Chain κ ν) : Option Nat := if pairs.isEmpty then none else some 0

end Heap

/-- The state of the unlinking loop: the heap, the entry it stands on, and the number of entries
released so far. -/
structure Unlinking (κ ν : Type) where
  heap : Heap κ ν
  entry : Option Nat
  count : Nat

namespace Unlinking

variable {κ ν : Type}

/-- One pass of the loop on the entry at `a`: its successor is saved first, then its key and its
value are blanked and its link is cut, one write each, and the loop moves to the saved successor
and counts the entry. -/
def pass (blank : κ × ν) (s : Unlinking κ ν) (a : Nat) : Unlinking κ ν :=
  let next := (s.heap a).next
  let m₁ := s.heap.write a { s.heap a with key := blank.1 }
  let m₂ := m₁.write a { m₁ a with value := blank.2 }
  let m₃ := m₂.write a { m₂ a with next := none }
  ⟨m₃, next, s.count + 1⟩

/-- The three writes of a pass leave the entry blank and alone. -/
theorem pass_eq (blank : κ × ν) (s : Unlinking κ ν) (a : Nat) :
    s.pass blank a =
      ⟨s.heap.write a ⟨blank.1, blank.2, none⟩, (s.heap a).next, s.count + 1⟩ := by
  have hheap : (s.pass blank a).heap = s.heap.write a ⟨blank.1, blank.2, none⟩ := by
    funext b
    by_cases h : b = a
    · subst h
      simp [pass]
    · simp [pass, h]
  rw [← hheap]
  rfl

/-- The loop for at most `fuel` passes; it stops as soon as it stands on no entry. -/
def run (blank : κ × ν) : Nat → Unlinking κ ν → Unlinking κ ν
  | 0, s => s
  | fuel + 1, s =>
    match s.entry with
    | none => s
    | some a => run blank fuel (s.pass blank a)

/-- The loop on the pairs laid out as one chain, with as many passes as there are pairs: the
number of entries it released, and each entry of the chain as it is left, its key, its value and
whether it links to nothing. -/
def onChain (blank : κ × ν) (pairs : Chain κ ν) : Nat × List (Chain.Detached κ ν) :=
  let s := run blank pairs.length ⟨Heap.lay blank pairs, Heap.layHead pairs, 0⟩
  (s.count, (List.range pairs.length).map fun a =>
    ⟨(s.heap a).key, (s.heap a).value, (s.heap a).next.isNone⟩)

end Unlinking

end Chaining
