import Mathlib
import Chaining.Crc32

/-!
# The checksum as a remainder of polynomials

CRC-32 is defined on polynomials over the field with two elements. The message is read as a
polynomial with one coefficient per bit, each byte from its lowest bit to its highest, the first
bit at the highest power. The register holds a remainder of degree below 32, and since it shifts
to the right, bit `i` stands for the coefficient of `X ^ (31 - i)`. The checksum of a message `M`
of `n` bytes is

  `(X ^ 32 * M + X ^ (8 * n) * ones) %ₘ generator + ones`,

where `ones` has all 32 coefficients one: the register starts at all ones, which adds
`X ^ (8 * n) * ones` to the dividend, and the result is complemented, which adds `ones`. The
generator is `0x04C11DB7` with its leading term `X ^ 32`; bit-reflected, its lower terms are the
word `0xEDB88320` the register subtracts.

* `reflected`: the lowest bits of a number as a polynomial, lowest bit at the highest power; the
  register, a byte and the constants are read through it.
* `X_mul_reflected`: a shift to the right is a multiplication by `X`, with the bit that falls out
  as the coefficient of the new top power.
* `mk_register_step`, `mk_register_byte`, `mk_register_update`: the register after a shift, a byte
  and a list of bytes, modulo the generator.

## Main statements

* `register_checksum`: the checksum is the remainder of the standard definition (`standard`).
* `register_injective`: a register is determined by its polynomial.
-/

namespace Chaining

namespace Crc32

open Polynomial

/-- The lowest `w` bits of `n` as a polynomial over `ZMod 2`, the lowest bit at the highest
power: bit `i` is the coefficient of `X ^ (w - 1 - i)`. -/
noncomputable def reflected (w n : Nat) : (ZMod 2)[X] :=
  ∑ i ∈ Finset.range w, if n.testBit i then X ^ (w - 1 - i) else 0

/-- The register as a polynomial: bit `i` is the coefficient of `X ^ (31 - i)`. -/
noncomputable def register (c : UInt32) : (ZMod 2)[X] := reflected 32 c.toNat

/-- A byte as a polynomial, its lowest bit at `X ^ 7`. -/
noncomputable def bytePoly (b : UInt8) : (ZMod 2)[X] := reflected 8 b.toNat

/-- The message as a polynomial: its bytes in order, the first at the highest powers. -/
noncomputable def message : List UInt8 → (ZMod 2)[X]
  | [] => 0
  | b :: bs => X ^ (8 * bs.length) * bytePoly b + message bs

/-- The polynomial whose 32 coefficients below `X ^ 32` are all one. -/
noncomputable def ones : (ZMod 2)[X] := ∑ i ∈ Finset.range 32, X ^ i

/-- The generator of CRC-32. -/
noncomputable def generator : (ZMod 2)[X] :=
  X ^ 32 + X ^ 26 + X ^ 23 + X ^ 22 + X ^ 16 + X ^ 12 + X ^ 11 + X ^ 10 + X ^ 8 + X ^ 7 + X ^ 5 +
    X ^ 4 + X ^ 2 + X + 1

/-- The CRC-32 of the bytes as the standard defines it, as a polynomial. -/
noncomputable def standard (bytes : List UInt8) : (ZMod 2)[X] :=
  (X ^ 32 * message bytes + X ^ (8 * bytes.length) * ones) %ₘ generator + ones

theorem generator_monic : generator.Monic := by
  unfold generator
  monicity!

theorem natDegree_generator : generator.natDegree = 32 := by
  unfold generator
  compute_degree!

/-! ## Bits as coefficients -/

section Reflected

/-- The bits of a number below `2 ^ k` are clear from `k` up. -/
theorem testBit_eq_false_of_le {k n i : Nat} (hn : n < 2 ^ k) (hi : k ≤ i) :
    n.testBit i = false :=
  Nat.testBit_lt_two_pow (Nat.lt_of_lt_of_le hn (Nat.pow_le_pow_right (by decide) hi))

/-- Exclusive or of the bits is addition of the coefficients. -/
theorem reflected_xor (w a b : Nat) : reflected w (a ^^^ b) = reflected w a + reflected w b := by
  simp only [reflected, ← Finset.sum_add_distrib, Nat.testBit_xor]
  refine Finset.sum_congr rfl fun i _ => ?_
  cases a.testBit i <;> cases b.testBit i <;> simp [CharTwo.add_self_eq_zero]

/-- A shift to the right by one bit multiplies by `X`; the lowest bit, which falls out, comes back
as the coefficient of `X ^ (w + 1)`. Bit `w + 1` must be clear, so that nothing shifts in from
above. -/
theorem X_mul_reflected (w n : Nat) (hw : n.testBit (w + 1) = false) :
    X * reflected (w + 1) n =
      reflected (w + 1) (n >>> 1) + if n.testBit 0 then X ^ (w + 1) else 0 := by
  -- peel the lowest bit off the left, and the bit shifted in at the top off the right
  rw [reflected, Finset.sum_range_succ', mul_add, Finset.mul_sum, reflected,
    Finset.sum_range_succ, Nat.testBit_shiftRight, Nat.add_comm 1 w, hw]
  have hlow : X * (if n.testBit 0 then (X : (ZMod 2)[X]) ^ (w + 1 - 1 - 0) else 0) =
      if n.testBit 0 then X ^ (w + 1) else 0 := by
    split <;> simp [← pow_succ']
  have hrest : ∀ i ∈ Finset.range w,
      X * (if n.testBit (i + 1) then (X : (ZMod 2)[X]) ^ (w + 1 - 1 - (i + 1)) else 0) =
        if (n >>> 1).testBit i then X ^ (w + 1 - 1 - i) else 0 := by
    intro i hi
    have hexp : w + 1 - 1 - i = w + 1 - 1 - (i + 1) + 1 := by
      rw [Finset.mem_range] at hi
      omega
    rw [Nat.testBit_shiftRight, Nat.add_comm 1 i, hexp]
    split <;> simp [pow_succ']
  rw [hlow, Finset.sum_congr rfl hrest]
  simp

/-- The lowest `k` bits placed at the top of `w` bits, for a number below `2 ^ k`. -/
theorem reflected_of_lt {k n : Nat} (w : Nat) (hk : k ≤ w) (hn : n < 2 ^ k) :
    reflected w n = X ^ (w - k) * reflected k n := by
  -- the bits from `k` up are clear, so only the first `k` terms of the sum remain
  have hclear : ∀ i ∈ Finset.range w, i ∉ Finset.range k →
      (if n.testBit i then (X : (ZMod 2)[X]) ^ (w - 1 - i) else 0) = 0 := by
    intro i _ hi
    rw [Finset.mem_range, Nat.not_lt] at hi
    rw [testBit_eq_false_of_le hn hi]
    rfl
  rw [reflected, ← Finset.sum_subset (Finset.range_subset_range.2 hk) hclear, reflected,
    Finset.mul_sum]
  refine Finset.sum_congr rfl fun i hi => ?_
  rw [Finset.mem_range] at hi
  have hexp : w - 1 - i = w - k + (k - 1 - i) := by omega
  split <;> simp [hexp, pow_add]

theorem reflected_all (w : Nat) : reflected w (2 ^ w - 1) = ∑ i ∈ Finset.range w, X ^ i := by
  rw [reflected, ← Finset.sum_range_reflect]
  refine Finset.sum_congr rfl fun i hi => ?_
  rw [Finset.mem_range] at hi
  rw [Nat.testBit_two_pow_sub_one, if_pos (by simp; omega)]
  congr 1
  omega

theorem degree_reflected_lt (w n : Nat) : (reflected w n).degree < w := by
  rw [← mem_degreeLT]
  refine Submodule.sum_mem _ fun i hi => ?_
  split
  · rw [mem_degreeLT, degree_X_pow]
    rw [Finset.mem_range] at hi
    exact_mod_cast (by omega : w - 1 - i < w)
  · exact Submodule.zero_mem _

theorem coeff_reflected {w j : Nat} (n : Nat) (hj : j < w) :
    (reflected w n).coeff (w - 1 - j) = if n.testBit j then 1 else 0 := by
  rw [reflected, finsetSum_coeff, Finset.sum_eq_single j]
  · split <;> simp
  · intro i hi hij
    rw [Finset.mem_range] at hi
    have hpow : w - 1 - j ≠ w - 1 - i := by omega
    split <;> simp [coeff_X_pow, hpow]
  · intro hj'
    exact absurd (Finset.mem_range.2 hj) hj'

/-- Below `2 ^ w`, a number is determined by its `w` bits. -/
theorem reflected_inj {w a b : Nat} (ha : a < 2 ^ w) (hb : b < 2 ^ w)
    (h : reflected w a = reflected w b) : a = b := by
  refine Nat.eq_of_testBit_eq fun j => ?_
  by_cases hj : j < w
  · have hcoeff := congrArg (·.coeff (w - 1 - j)) h
    simp only [coeff_reflected _ hj] at hcoeff
    cases hja : a.testBit j <;> cases hjb : b.testBit j <;> simp_all
  · rw [Nat.not_lt] at hj
    rw [testBit_eq_false_of_le ha hj, testBit_eq_false_of_le hb hj]

end Reflected

/-! ## The register -/

theorem register_injective : Function.Injective register := fun a b h =>
  UInt32.toNat_inj.1 (reflected_inj a.toNat_lt b.toNat_lt h)

theorem register_xor (a b : UInt32) : register (a ^^^ b) = register a + register b := by
  rw [register, UInt32.toNat_xor, reflected_xor]
  rfl

/-- The generator is `X ^ 32` and the word the register subtracts, read reflected. -/
theorem generator_eq : generator = X ^ 32 + register polynomial := by
  simp [generator, register, reflected, polynomial, Finset.sum_range_succ, Nat.testBit]
  ring

theorem register_ones : register 0xFFFFFFFF = ones := reflected_all 32

/-- The lowest bit of the register is the one a step tests. -/
theorem and_one_eq_one_iff (c : UInt32) : c &&& 1 = 1 ↔ c.toNat.testBit 0 = true := by
  rw [← UInt32.toNat_inj, UInt32.toNat_and, Nat.testBit_zero]
  simp [Nat.and_one_is_mod]

/-- One step multiplies the register by `X`, less the generator when a one falls out. -/
theorem X_mul_register_step (c : UInt32) :
    X * register c = register (step c) + if c.toNat.testBit 0 then generator else 0 := by
  have htop : c.toNat.testBit 32 = false := Nat.testBit_lt_two_pow c.toNat_lt
  have hshift : register (c >>> 1) = reflected 32 (c.toNat >>> 1) := by
    rw [register, UInt32.toNat_shiftRight]
    rfl
  rw [register, X_mul_reflected 31 c.toNat htop, ← hshift]
  by_cases hb : c.toNat.testBit 0 = true
  · -- a one falls out: `X ^ 32` is the generator plus the polynomial, in characteristic two
    rw [if_pos hb, if_pos hb, step, if_pos ((and_one_eq_one_iff c).2 hb), register_xor,
      generator_eq]
    have h2 : register polynomial + register polynomial = 0 := CharTwo.add_self_eq_zero _
    linear_combination -h2
  · rw [if_neg hb, if_neg hb, step, if_neg fun h => hb ((and_one_eq_one_iff c).1 h), add_zero]

/-! ## Modulo the generator -/

theorem mk_register_step (c : UInt32) :
    AdjoinRoot.mk generator (register (step c)) =
      AdjoinRoot.mk generator X * AdjoinRoot.mk generator (register c) := by
  rw [← map_mul, X_mul_register_step, map_add]
  split <;> simp

theorem mk_register_repeat (n : Nat) (c : UInt32) :
    AdjoinRoot.mk generator (register (Nat.repeat step n c)) =
      AdjoinRoot.mk generator X ^ n * AdjoinRoot.mk generator (register c) := by
  induction n with
  | zero => simp [Nat.repeat]
  | succ n ih =>
    rw [Nat.repeat, mk_register_step, ih, pow_succ]
    ring

theorem register_byte_word (b : UInt8) : register b.toUInt32 = X ^ 24 * bytePoly b := by
  rw [register, UInt8.toNat_toUInt32, reflected_of_lt 32 (by decide) b.toNat_lt]
  rfl

/-- A byte enters the low end of the register, then eight steps follow. -/
theorem mk_register_byte (crc : UInt32) (b : UInt8) :
    AdjoinRoot.mk generator (register (byte crc b)) =
      AdjoinRoot.mk generator X ^ 8 * AdjoinRoot.mk generator (register crc) +
        AdjoinRoot.mk generator X ^ 32 * AdjoinRoot.mk generator (bytePoly b) := by
  rw [byte, mk_register_repeat, register_xor, register_byte_word, map_add, map_mul, map_pow]
  ring

theorem mk_register_update (crc : UInt32) (bytes : List UInt8) :
    AdjoinRoot.mk generator (register (update crc bytes)) =
      AdjoinRoot.mk generator (X ^ (8 * bytes.length) * register crc +
        X ^ 32 * message bytes) := by
  induction bytes generalizing crc with
  | nil => simp [update, message]
  | cons b bs ih =>
    rw [update, List.foldl_cons, ← update, ih, message]
    simp only [map_add, map_mul, map_pow, mk_register_byte, List.length_cons]
    ring

/-- **The checksum is the standard CRC-32**: its register is the remainder of the message, moved
up by 32 places and started at all ones, divided by the generator, and then complemented. -/
theorem register_checksum (bytes : List UInt8) : register (checksum bytes) = standard bytes := by
  have hdeg : (register (update 0xFFFFFFFF bytes)).degree < generator.degree := by
    rw [degree_eq_natDegree generator_monic.ne_zero, natDegree_generator]
    exact degree_reflected_lt 32 _
  have hdvd : generator ∣ register (update 0xFFFFFFFF bytes) -
      (X ^ 32 * message bytes + X ^ (8 * bytes.length) * ones) := by
    rw [← AdjoinRoot.mk_eq_mk, mk_register_update, register_ones, add_comm]
  rw [checksum, register_xor, register_ones, standard,
    ← modByMonic_eq_of_dvd_sub generator_monic hdvd,
    (modByMonic_eq_self_iff generator_monic).2 hdeg]

end Crc32

end Chaining
