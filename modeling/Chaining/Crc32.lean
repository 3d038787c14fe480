/-!
# CRC-32

The checksum that selects a key's bucket: the CRC-32 of ISO-HDLC (as in zip and PNG), with the
reflected polynomial `0xEDB88320`, the register started at all ones, and the result complemented.

* `Crc32.step`: one bit of the division by the polynomial.
* `Crc32.byte`: eight steps after the byte enters the low end of the register.
* `Crc32.checksum`: the fold over the bytes, between the two complements.
-/

namespace Chaining

namespace Crc32

/-- The polynomial, bit-reflected. -/
def polynomial : UInt32 := 0xEDB88320

/-- One bit of the division: shift right, and subtract the polynomial when a one falls out. -/
def step (crc : UInt32) : UInt32 :=
  if crc &&& 1 = 1 then (crc >>> 1) ^^^ polynomial else crc >>> 1

/-- The register after one byte: the byte enters the low end, then eight steps follow. -/
def byte (crc : UInt32) (b : UInt8) : UInt32 :=
  Nat.repeat step 8 (crc ^^^ b.toUInt32)

/-- The register after the bytes, in order. -/
def update (crc : UInt32) (bytes : List UInt8) : UInt32 := bytes.foldl byte crc

/-- The CRC-32 of the bytes. -/
def checksum (bytes : List UInt8) : UInt32 := update 0xFFFFFFFF bytes ^^^ 0xFFFFFFFF

theorem update_append (crc : UInt32) (a b : List UInt8) :
    update crc (a ++ b) = update (update crc a) b := List.foldl_append

/-- The check value of the standard: the checksum of the digits one to nine. -/
example : checksum ("123456789".toList.map fun c => c.toNat.toUInt8) = 0xCBF43926 := by decide +kernel

example : checksum [] = 0 := by decide

end Crc32

end Chaining
