import Chaining.Chain

/-!
# Searching a chain after a store

A store changes one chain in one of two ways: an overwrite gives the entry at a link a new value,
and an append links a new entry after the tail. The lemmas here say what a search for any key
finds afterwards, which is all the table needs to know about its chains.

* `locate_map_snd`: the value a search finds is that of the first entry with the key.
* `linkOf_eq_findIdx`: a search ends at the first entry with the key.
* `locate_eq_none_iff`: a search misses exactly when no entry has the key.
* `locate_overwrite`, `locate_append`: a search after an overwrite, and after an append.
* `keys_overwrite`, `keys_append`: an overwrite keeps the keys; an append adds one at the end.
-/

namespace Chaining

namespace Chain

variable {κ ν : Type}

theorem keys_overwrite (c : Chain κ ν) (i : Nat) (v : ν) :
    (c.overwrite i v).map (·.1) = c.map (·.1) := by
  induction c generalizing i with
  | nil => simp [overwrite]
  | cons e rest ih =>
    cases i with
    | zero => simp [overwrite]
    | succ i => simpa [overwrite] using ih i

theorem keys_append (c : Chain κ ν) (k : κ) (v : ν) :
    (c.append k v).map (·.1) = c.map (·.1) ++ [k] := by
  simp [append]

section Search

variable [BEq κ]

theorem locate_map_snd (k : κ) (c : Chain κ ν) :
    (locate k c).map (·.2) = (c.find? (·.1 == k)).map (·.2) := by
  induction c with
  | nil => rfl
  | cons e rest ih =>
    obtain ⟨j, v⟩ := e
    by_cases h : (j == k) = true
    · simp [locate, h]
    · simp only [locate, h, Bool.false_eq_true, if_false, List.find?_cons]
      rw [← ih, Option.map_map]
      rfl

/-- A search ends at the position of the first entry with an equal key. -/
theorem linkOf_eq_findIdx (k : κ) (c : Chain κ ν) : linkOf k c = c.findIdx (·.1 == k) := by
  induction c with
  | nil => rfl
  | cons e rest ih =>
    obtain ⟨j, v⟩ := e
    by_cases h : (j == k) = true
    · simp [linkOf, locate, h, List.findIdx_cons]
    · rw [List.findIdx_cons, ← ih]
      unfold linkOf
      cases hl : locate k rest with
      | none => simp [locate, h, hl]
      | some r => simp [locate, h, hl]

theorem locate_eq_none_iff [LawfulBEq κ] (k : κ) (c : Chain κ ν) :
    locate k c = none ↔ k ∉ c.map (·.1) := by
  rw [← Option.not_isSome_iff_eq_none, locate_isSome_iff]
  simp

/-- After an overwrite at the link where `k` was found, a search for `k` finds the new value
there, and a search for any other key finds what it found before. -/
theorem locate_overwrite [LawfulBEq κ] {k : κ} {c : Chain κ ν} {i : Nat} {w : ν}
    (h : locate k c = some (i, w)) (k' : κ) (v : ν) :
    locate k' (c.overwrite i v) = if k == k' then some (i, v) else locate k' c := by
  induction c generalizing i w with
  | nil => simp [locate] at h
  | cons e rest ih =>
    obtain ⟨j, u⟩ := e
    by_cases hj : (j == k) = true
    · have hjk : j = k := by simpa using hj
      subst hjk
      simp only [locate, hj, if_true, Option.some.injEq, Prod.mk.injEq] at h
      obtain ⟨rfl, rfl⟩ := h
      by_cases hk : (j == k') = true <;> simp [overwrite, locate, hk]
    · simp only [locate, hj, Bool.false_eq_true, if_false, Option.map_eq_some_iff,
        Prod.exists, Prod.mk.injEq] at h
      obtain ⟨i', w', h', rfl, rfl⟩ := h
      have hrest : locate k' (overwrite rest i' v) =
          if k == k' then some (i', v) else locate k' rest := ih h'
      simp only [overwrite, List.modify_succ_cons] at hrest ⊢
      by_cases hk : (k == k') = true
      · have hkk : k = k' := by simpa using hk
        subst hkk
        simp [locate, hj, hrest]
      · simp [locate, hk, hrest]

/-- After an append, a search finds what it found before; a search that missed finds the new
entry, at the link that was the chain's length, when it has the key. -/
theorem locate_append (k k' : κ) (v : ν) (c : Chain κ ν) :
    locate k' (c.append k v) = (locate k' c).or (if k == k' then some (c.length, v) else none) := by
  induction c with
  | nil => by_cases h : (k == k') = true <;> simp [append, locate, h]
  | cons e rest ih =>
    obtain ⟨j, u⟩ := e
    simp only [append] at ih
    by_cases hj : (j == k') = true
    · simp [append, locate, hj]
    · simp only [append, List.cons_append, locate, hj, Bool.false_eq_true, if_false, ih,
        List.length_cons]
      cases locate k' rest <;> by_cases hk : (k == k') = true <;> simp [hk]

end Search

end Chain

end Chaining
