import Chaining.Key
import Chaining.Datum.Render
import Chaining.Template.Fill

/-!
# Checksums and remainders of arbitrary data

The two arithmetic requests a caller can make outside a table, on data as given.

* `Datum.checksum?`: the CRC-32 of a text's UTF-8 bytes. A text with a surrogate has no bytes,
  and a datum that is not a text has no encoding at all.
* `Datum.reduce`: the remainder of one datum by another: the floored remainder of integers or of
  floats, which takes the sign of the divisor, or a template filled with the divisor.

## Results

* `checksum?_of_check`: a datum that is a key has the key's checksum.
* `reduce_int`: the remainder of integers is the floored one.
* `reduce_lt`: the remainder by a positive integer lies in `[0, n)`.
-/

namespace Chaining

namespace Datum

/-- The CRC-32 of the UTF-8 bytes of a text. -/
def checksum? : Datum → Except Fault Nat
  | .str t =>
    match t.utf8? with
    | .ok bytes => .ok (Crc32.checksum bytes).toNat
    | .error e => .error (.unencodable e)
  | d => .error (.notEncodable d.typeName)

theorem checksum?_of_check {d : Datum} {k : Key} (h : Key.check d = .ok k) :
    d.checksum? = .ok k.checksum := by
  cases d with
  | str t =>
    simp only [Key.check] at h
    simp only [checksum?, Text.utf8?, Key.checksum, Key.utf8]
    split at h
    · simp at h
    · simp at h
    · rename_i c cs heq
      simp only [Except.ok.injEq] at h
      subst h
      simp [heq, Except.map]
  | _ => simp [Key.check] at h

/-- The remainder of `h` by `n`, as a caller's data give it. A text `h` is a template, filled with
`n` (`Template.fill`). Two integers, truth values counting as `0` and `1`, give the integer
remainder of floored division, which takes the sign of `n`; `n` must not be zero. An integer and
a float, or two floats, give the float remainder of floored division, after each integer is
rounded to a float, first `h` and then `n`; `n` must not be a zero. Anything else has no
remainder. -/
def reduce (h n : Datum) : Except Fault Datum :=
  match h with
  | .str t => (Template.fill t n).map .str
  | _ =>
    match h.numeric?, n.numeric? with
    | some (.int a), some (.int b) => if b = 0 then .error .moduloByZero else .ok (.int (a.fmod b))
    | some x, some y => do
      let x ← x.toBinary64
      let y ← y.toBinary64
      if y.isZero then throw .floatModuloByZero
      pure (.float (x.floorRem y).toFloat)
    | _, _ => .error (.operandsUnsupported h.typeName n.typeName)

theorem reduce_int (a b : Int) (hb : b ≠ 0) : reduce (.int a) (.int b) = .ok (.int (a.fmod b)) := by
  simp [reduce, numeric?, hb]

theorem reduce_lt (a : Int) (n : Nat) (hn : 0 < n) :
    ∃ r, reduce (.int a) (.int n) = .ok (.int r) ∧ 0 ≤ r ∧ r < n :=
  ⟨a.fmod n, reduce_int a n (by omega), Int.fmod_nonneg_of_pos a (by omega),
    Int.fmod_lt_of_pos a (by omega)⟩

example : reduce (.int (-7)) (.int 3) = .ok (.int 2) := reduce_int _ _ (by decide)
example : reduce (.int 7) (.int (-3)) = .ok (.int (-2)) := reduce_int _ _ (by decide)
example : reduce (.str (.ofString "x%sy")) (.int 3) = .ok (.str (.ofString "x3y")) := by rfl

end Datum

end Chaining
