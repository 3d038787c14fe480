import Chaining.Hashing
import Chaining.Proofs.Crc32
import Chaining.Proofs.Commute

/-!
# Hashing and reducing, for every datum

What a caller gets from the checksum and the remainder requests, and which data the key check
accepts. A text is a sequence of code points that may hold lone surrogates; one without them is a
string, and its checksum is the CRC-32 (`Crc32.standard`) of the string's UTF-8 encoding.

* `checksum?_str`: the checksum of a text is that of its characters' UTF-8 bytes, or the fault
  of its first surrogates.
* `checksum?_error_iff`: a checksum is refused, as an encoding error, exactly for the texts with
  a surrogate.
* `checksum?_ofString`, `checksum?_standard`: the checksum of a string is the CRC-32 of its
  UTF-8 encoding.
* `Key.check_ok_iff`: a key is a non-empty text whose checksum can be taken.
* `IsFlooredRem`: the remainder of floored division, which `Int.fmod` gives
  (`isFlooredRem_fmod`) and which is unique (`IsFlooredRem.unique`); `reduce_floored`: the
  remainder of two integers is that one.

## Main statements

* `hashing_as_documented`: the checksum, the key check and the remainder of integers, for every
  datum.
-/

namespace Chaining

/-! ## Texts and strings -/

theorem Text.eq_ofString_of_chars? {t : Text} {cs : List Char} (h : t.chars? = .ok cs) :
    t = .ofString (String.ofList cs) := by
  rw [Text.eq_ofChars_of_chars? h]
  simp [Text.ofChars, Text.ofString]

/-- A text without surrogates is a string. -/
theorem Text.exists_ofString {t : Text} (h : ∀ p ∈ t.points, p.isSurrogate = false) :
    ∃ s : String, t = .ofString s := by
  obtain ⟨cs, hcs⟩ := (Text.chars?_isOk_iff t).2 h
  exact ⟨_, Text.eq_ofString_of_chars? hcs⟩

/-- The UTF-8 encoding of a string is that of its characters, one after another. -/
theorem toUTF8_toList (s : String) :
    s.toUTF8.data.toList = s.toList.flatMap String.utf8EncodeChar := by
  rw [String.toUTF8_eq_toByteArray, ← String.utf8Encode_toList, List.utf8Encode,
    List.toList_data_toByteArray]

/-! ## The checksum -/

namespace Datum

theorem checksum?_str (t : Text) :
    checksum? (.str t) =
      match t.chars? with
      | .ok cs => .ok (Crc32.checksum (cs.flatMap String.utf8EncodeChar)).toNat
      | .error e => .error (.unencodable e) := by
  cases h : t.chars? <;> simp [checksum?, Text.utf8?, h, Except.map]

theorem checksum?_error_iff (t : Text) :
    (∃ e, checksum? (.str t) = .error e ∧ e.kind = "UnicodeEncodeError") ↔
      ∃ p ∈ t.points, p.isSurrogate = true := by
  rw [checksum?_str]
  constructor
  · rintro ⟨e, he, -⟩
    -- a text without surrogates has characters, and their bytes always have a checksum
    by_contra hno
    have hfree : ∀ p ∈ t.points, p.isSurrogate = false := fun p hp => by
      simpa using fun hs => hno ⟨p, hp, hs⟩
    obtain ⟨cs, hcs⟩ := (Text.chars?_isOk_iff t).2 hfree
    rw [hcs] at he
    cases he
  · rintro ⟨p, hp, hsur⟩
    cases hcs : t.chars? with
    | ok cs =>
      have hfree := (Text.chars?_isOk_iff t).1 ⟨cs, hcs⟩ p hp
      rw [hsur] at hfree
      cases hfree
    | error e => exact ⟨.unencodable e, rfl, rfl⟩

theorem checksum?_ofString (s : String) :
    checksum? (.str (.ofString s)) = .ok (Crc32.checksum s.toUTF8.data.toList).toNat := by
  rw [checksum?_str, Text.chars?_ofString, toUTF8_toList]

/-- The checksum of a string is the number below `2 ^ 32` of the one register whose polynomial is
the CRC-32 of the string's UTF-8 encoding. -/
theorem checksum?_standard (s : String) :
    ∃ n < 2 ^ 32, checksum? (.str (.ofString s)) = .ok n ∧
      ∀ c : UInt32, c.toNat = n ↔ Crc32.register c = Crc32.standard s.toUTF8.data.toList := by
  refine ⟨_, (Crc32.checksum s.toUTF8.data.toList).toNat_lt, checksum?_ofString s, fun c => ?_⟩
  rw [← Crc32.register_checksum, Crc32.register_injective.eq_iff, UInt32.toNat_inj]

end Datum

/-! ## The key check -/

/-- A datum is a key exactly when it is a text with a code point whose checksum can be taken. -/
theorem Key.check_ok_iff (d : Datum) :
    (∃ k, Key.check d = .ok k) ↔
      ∃ t, d = .str t ∧ t.points ≠ [] ∧ ∃ n, d.checksum? = .ok n := by
  constructor
  · rintro ⟨k, hk⟩
    have hne : k.text.points ≠ [] := by simpa [Key.text, Text.ofChars] using k.ne_nil
    exact ⟨k.text, Key.eq_of_check hk, hne, k.checksum, Datum.checksum?_of_check hk⟩
  · rintro ⟨t, rfl, hne, n, hn⟩
    cases hcs : t.chars? with
    | error e =>
      rw [Datum.checksum?_str, hcs] at hn
      cases hn
    | ok cs =>
      cases cs with
      | nil =>
        rw [Text.eq_ofChars_of_chars? hcs] at hne
        exact absurd rfl hne
      | cons c cs => exact ⟨⟨c :: cs, List.cons_ne_nil c cs⟩, by simp [Key.check, hcs]⟩

/-! ## The remainder of integers -/

/-- `r` is the remainder of `a` by `b` in floored division: `b` divides `a - r`, and `r` lies
between `0` and `b`, `0` included and `b` excluded, so it takes the sign of `b`. -/
def IsFlooredRem (a b r : Int) : Prop :=
  b ∣ a - r ∧ (0 < b → 0 ≤ r ∧ r < b) ∧ (b < 0 → b < r ∧ r ≤ 0)

theorem isFlooredRem_fmod (a b : Int) : IsFlooredRem a b (a.fmod b) := by
  refine ⟨Dvd.intro _ (Int.mul_fdiv_self a b), fun hpos => ?_, fun hneg => ?_⟩
  · exact ⟨Int.fmod_nonneg_of_pos a hpos, Int.fmod_lt_of_pos a hpos⟩
  · -- by a negative divisor, the remainder is the negated one by its opposite
    have hflip := Int.neg_fmod_neg a b
    have hlow := Int.fmod_nonneg_of_pos (-a) (Int.neg_pos.2 hneg)
    have hhigh := Int.fmod_lt_of_pos (-a) (Int.neg_pos.2 hneg)
    omega

/-- Two floored remainders differ by a multiple of `b` smaller than `b`, so they are equal. -/
theorem IsFlooredRem.unique {a b r₁ r₂ : Int} (hb : b ≠ 0) (h₁ : IsFlooredRem a b r₁)
    (h₂ : IsFlooredRem a b r₂) : r₁ = r₂ := by
  obtain ⟨hd₁, hp₁, hn₁⟩ := h₁
  obtain ⟨hd₂, hp₂, hn₂⟩ := h₂
  have hdvd : b ∣ r₁ - r₂ := by
    have := dvd_sub hd₂ hd₁
    rwa [show a - r₂ - (a - r₁) = r₁ - r₂ by ring] at this
  have hsmall : (r₁ - r₂).natAbs < b.natAbs := by
    rcases Int.lt_or_gt_of_ne hb with hneg | hpos
    · have := hn₁ hneg
      have := hn₂ hneg
      omega
    · have := hp₁ hpos
      have := hp₂ hpos
      omega
  have := Int.eq_zero_of_dvd_of_natAbs_lt_natAbs hdvd hsmall
  omega

namespace Datum

/-- The remainder of two data read as integers, truth values included. -/
theorem reduce_of_numeric {h n : Datum} {a b : Int} (ha : h.numeric? = some (.int a))
    (hb : n.numeric? = some (.int b)) :
    reduce h n = if b = 0 then .error .moduloByZero else .ok (.int (a.fmod b)) := by
  cases h with
  | str t => simp [numeric?] at ha
  | _ => simp_all [reduce]

/-- The remainder of two data read as integers is refused, as a division by zero, exactly by the
divisor `0`, and is otherwise the floored remainder and no other number. -/
theorem reduce_floored {h n : Datum} {a b : Int} (ha : h.numeric? = some (.int a))
    (hb : n.numeric? = some (.int b)) :
    ((∃ e, reduce h n = .error e ∧ e.kind = "ZeroDivisionError") ↔ b = 0) ∧
      (b ≠ 0 → (∃ r, reduce h n = .ok (.int r)) ∧
        ∀ r, reduce h n = .ok (.int r) ↔ IsFlooredRem a b r) := by
  rw [reduce_of_numeric ha hb]
  by_cases hb0 : b = 0
  · simp [hb0, Fault.kind]
  · refine ⟨by simp [hb0], fun _ => ⟨⟨_, if_neg hb0⟩, fun r => ?_⟩⟩
    rw [if_neg hb0]
    constructor
    · intro hr
      cases hr
      exact isFlooredRem_fmod a b
    · intro hr
      rw [IsFlooredRem.unique hb0 hr (isFlooredRem_fmod a b)]

end Datum

/-- **Hashing as documented.** A text's checksum is refused, as an encoding error, exactly when
the text has a surrogate; a text without one is a string, and the checksum of a string is the
number below `2 ^ 32` of the one register whose polynomial is the standard CRC-32 of the string's
UTF-8 encoding. A datum is a key exactly when it is a non-empty text whose checksum can be taken.
The remainder of two integers, a truth value counting as `0` or `1`, is refused as a division by
zero exactly when the divisor is `0`, and is otherwise the floored remainder. -/
theorem hashing_as_documented :
    (∀ t : Text,
      (∃ e, Datum.checksum? (.str t) = .error e ∧ e.kind = "UnicodeEncodeError") ↔
        ∃ p ∈ t.points, p.isSurrogate = true) ∧
    (∀ t : Text, (∀ p ∈ t.points, p.isSurrogate = false) →
      ∃ s : String, t = .ofString s) ∧
    (∀ s : String, ∃ n < 2 ^ 32, Datum.checksum? (.str (.ofString s)) = .ok n ∧
      ∀ c : UInt32, c.toNat = n ↔ Crc32.register c = Crc32.standard s.toUTF8.data.toList) ∧
    (∀ d : Datum, (∃ k, Key.check d = .ok k) ↔
      ∃ t, d = .str t ∧ t.points ≠ [] ∧ ∃ n, d.checksum? = .ok n) ∧
    ∀ h n : Datum, ∀ a b : Int, h.numeric? = some (.int a) → n.numeric? = some (.int b) →
      ((∃ e, Datum.reduce h n = .error e ∧ e.kind = "ZeroDivisionError") ↔ b = 0) ∧
      (b ≠ 0 → (∃ r, Datum.reduce h n = .ok (.int r)) ∧
        ∀ r, Datum.reduce h n = .ok (.int r) ↔ IsFlooredRem a b r) :=
  ⟨Datum.checksum?_error_iff, fun _ => Text.exists_ofString, Datum.checksum?_standard,
    Key.check_ok_iff, fun _ _ _ _ => Datum.reduce_floored⟩

/-- A truth value reduced by a negative integer. -/
theorem true_reduced_by_negative :
    (Datum.bool true).numeric? = some (.int 1) ∧ (Datum.int (-3)).numeric? = some (.int (-3)) ∧
      (((∃ e, Datum.reduce (.bool true) (.int (-3)) = .error e ∧
          e.kind = "ZeroDivisionError") ↔ (-3 : Int) = 0) ∧
        ((-3 : Int) ≠ 0 → (∃ r, Datum.reduce (.bool true) (.int (-3)) = .ok (.int r)) ∧
          ∀ r, Datum.reduce (.bool true) (.int (-3)) = .ok (.int r) ↔ IsFlooredRem 1 (-3) r)) :=
  ⟨rfl, rfl, hashing_as_documented.2.2.2.2 _ _ _ _ rfl rfl⟩

end Chaining
