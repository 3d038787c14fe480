import Chaining.Fault
import Chaining.Datum.Basic
import Chaining.Crc32

/-!
# Keys and their buckets

A key is a non-empty text without surrogates, so it always has UTF-8 bytes. Its checksum is the
CRC-32 of those bytes, and its bucket in a table of `n` buckets is the checksum modulo `n`.

* `Key`: a non-empty list of characters.
* `Key.check`: the key a datum stands for, or why it stands for none. A datum that is not a text
  is refused first, then a text with a surrogate, then the empty text.
* `Key.checksum`, `Key.bucket`: the checksum and the bucket.
-/

namespace Chaining

/-- A key: a non-empty sequence of characters. -/
structure Key where
  chars : List Char
  ne_nil : chars ≠ []
deriving DecidableEq

namespace Key

/-- The key as a text. -/
def text (k : Key) : Text := .ofChars k.chars

/-- The UTF-8 bytes of the key. -/
def utf8 (k : Key) : List UInt8 := k.chars.flatMap String.utf8EncodeChar

/-- The CRC-32 of the key's UTF-8 bytes. -/
def checksum (k : Key) : Nat := (Crc32.checksum k.utf8).toNat

/-- The bucket of the key among `n` buckets. -/
def bucket (k : Key) (n : Nat) : Nat := k.checksum % n

theorem bucket_lt (k : Key) {n : Nat} (h : 0 < n) : k.bucket n < n := Nat.mod_lt _ h

/-- The key a datum stands for: a text, with no surrogate, and not empty. -/
def check : Datum → Except Fault Key
  | .str t =>
    match t.chars? with
    | .error _ => .error (.keyUnencodable t)
    | .ok [] => .error .keyEmpty
    | .ok (c :: cs) => .ok ⟨c :: cs, List.cons_ne_nil c cs⟩
  | d => .error (.keyNotText d.typeName)

/-- The key of a string with at least one character. -/
def ofString (s : String) (h : s.toList ≠ [] := by decide) : Key := ⟨s.toList, h⟩

@[simp] theorem check_ofString (s : String) (h : s.toList ≠ []) :
    check (.str (.ofString s)) = .ok (ofString s h) := by
  simp only [check, Text.chars?_ofString, ofString]
  split <;> simp_all

/-- The text of a key is accepted as that key. -/
@[simp] theorem check_text (k : Key) : check (.str k.text) = .ok k := by
  obtain ⟨_ | ⟨c, cs⟩, h⟩ := k
  · exact absurd rfl h
  · simp [check, text]

example : (ofString "Host").bucket 256 = 195 := by decide +kernel

end Key

end Chaining
