import WasiHost.Layout.Primitive

/-!
# Values and their octets

A value of a type is the same thing as the octets it is stored in: as many as the type is wide, the
lowest first, signed integers as their two's complement. Either can be had back from the other, for
every value and for every octet string of the right length.

* **`Value.decode_encode`** — the octets of a value are those of its bit pattern.
* **`Value.encode_ofBits_decode`** — octets are written back from the value read out of them.
-/

namespace WasiHost

theorem Primitive.size_pos (p : Primitive) : 0 < p.size.toNat := by
  cases p <;> decide

theorem Primitive.size_le_eight (p : Primitive) : p.size.toNat ≤ 8 := by
  cases p <;> decide

namespace Value

theorem bits_lt (v : Value) : v.bits < Nat.pow 256 v.primitive.size.toNat := by
  cases v with
  | u8 v => exact v.toNat_lt
  | u16 v => exact v.toNat_lt
  | u32 v => exact v.toNat_lt
  | u64 v => exact v.toNat_lt
  | i8 v => exact v.toUInt8.toNat_lt
  | i16 v => exact v.toUInt16.toNat_lt
  | i32 v => exact v.toUInt32.toNat_lt
  | i64 v => exact v.toUInt64.toNat_lt

/-- `ofBits` is the left inverse of `bits`, at the type of the value. -/
theorem ofBits_bits (v : Value) : ofBits v.primitive v.bits = v := by
  cases v <;> simp [ofBits, primitive, bits]

/-- `bits` of what `ofBits` makes of a number is the number modulo the range of the type. -/
theorem bits_ofBits (p : Primitive) (n : Nat) :
    (ofBits p n).bits = n % Nat.pow 256 p.size.toNat := by
  cases p <;> rfl

/-- `LittleEndian.decode` of the octets of a value is its bit pattern. -/
theorem decode_encode (v : Value) : LittleEndian.decode v.encode = v.bits := by
  rw [encode, LittleEndian.decode_encode, Nat.mod_eq_of_lt v.bits_lt]

/-- Octets as many as a type is wide are those of the value that `Value.ofBits` makes of them. -/
theorem encode_ofBits_decode {p : Primitive} {bytes : Bytes} (h : bytes.length = p.size.toNat) :
    (ofBits p (LittleEndian.decode bytes)).encode = bytes := by
  have hlt := LittleEndian.decode_lt bytes
  rw [h] at hlt
  rw [encode, bits_ofBits, primitive_ofBits, Nat.mod_eq_of_lt hlt, ← h,
    LittleEndian.encode_decode]

end Value

end WasiHost
