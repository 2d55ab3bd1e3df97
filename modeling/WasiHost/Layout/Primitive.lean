import WasiHost.Abi.LittleEndian

/-!
# Primitive types and values

The eight integer types a field of a record may have, and values of them. Signed integers are stored
as their two's complement.
-/

namespace WasiHost

/-- An integer type of fixed width. -/
inductive Primitive where
  | u8
  | u16
  | u32
  | u64
  | i8
  | i16
  | i32
  | i64
  deriving DecidableEq, Inhabited

namespace Primitive

/-- Every integer type. -/
def all : List Primitive := [u8, u16, u32, u64, i8, i16, i32, i64]

/-- The width in octets, which is also the natural alignment. -/
def size : Primitive → UInt32
  | u8 | i8 => 1
  | u16 | i16 => 2
  | u32 | i32 => 4
  | u64 | i64 => 8

/-- The name of an integer type. -/
def name : Primitive → String
  | u8 => "U8"
  | u16 => "U16"
  | u32 => "U32"
  | u64 => "U64"
  | i8 => "I8"
  | i16 => "I16"
  | i32 => "I32"
  | i64 => "I64"

/-- The integer type with a given name. -/
def ofName? (name : String) : Option Primitive :=
  all.find? fun p => p.name = name

/-- The integer type that a declaration spells: a sign letter with the width in bits, or the
accessor of a data view. -/
def ofSpelling? : String → Option Primitive
  | "u8" | "Uint8" => some u8
  | "u16" | "Uint16" => some u16
  | "u32" | "Uint32" => some u32
  | "u64" | "BigUint64" => some u64
  | "i8" | "Int8" => some i8
  | "i16" | "Int16" => some i16
  | "i32" | "Int32" => some i32
  | "i64" | "BigInt64" => some i64
  | _ => none

end Primitive

/-- An integer of one of the primitive types. -/
inductive Value where
  | u8 (v : UInt8)
  | u16 (v : UInt16)
  | u32 (v : UInt32)
  | u64 (v : UInt64)
  | i8 (v : Int8)
  | i16 (v : Int16)
  | i32 (v : Int32)
  | i64 (v : Int64)
  deriving DecidableEq, Inhabited

namespace Value

/-- The type of a value. -/
def primitive : Value → Primitive
  | u8 _ => .u8
  | u16 _ => .u16
  | u32 _ => .u32
  | u64 _ => .u64
  | i8 _ => .i8
  | i16 _ => .i16
  | i32 _ => .i32
  | i64 _ => .i64

/-- The integer a value stands for. -/
def toInt : Value → Int
  | u8 v => v.toNat
  | u16 v => v.toNat
  | u32 v => v.toNat
  | u64 v => v.toNat
  | i8 v => v.toInt
  | i16 v => v.toInt
  | i32 v => v.toInt
  | i64 v => v.toInt

/-- The bit pattern of a value, read as a natural number. -/
def bits : Value → Nat
  | u8 v => v.toNat
  | u16 v => v.toNat
  | u32 v => v.toNat
  | u64 v => v.toNat
  | i8 v => v.toUInt8.toNat
  | i16 v => v.toUInt16.toNat
  | i32 v => v.toUInt32.toNat
  | i64 v => v.toUInt64.toNat

/-- The value of a given type with a given bit pattern. -/
def ofBits (p : Primitive) (n : Nat) : Value :=
  match p with
  | .u8 => u8 (UInt8.ofNat n)
  | .u16 => u16 (UInt16.ofNat n)
  | .u32 => u32 (UInt32.ofNat n)
  | .u64 => u64 (UInt64.ofNat n)
  | .i8 => i8 (UInt8.ofNat n).toInt8
  | .i16 => i16 (UInt16.ofNat n).toInt16
  | .i32 => i32 (UInt32.ofNat n).toInt32
  | .i64 => i64 (UInt64.ofNat n).toInt64

/-- The least and the greatest integer of a type. -/
def range : Primitive → Int × Int
  | .u8 => (0, UInt8.size - 1)
  | .u16 => (0, UInt16.size - 1)
  | .u32 => (0, UInt32.size - 1)
  | .u64 => (0, UInt64.size - 1)
  | .i8 => (Int8.minValue.toInt, Int8.maxValue.toInt)
  | .i16 => (Int16.minValue.toInt, Int16.maxValue.toInt)
  | .i32 => (Int32.minValue.toInt, Int32.maxValue.toInt)
  | .i64 => (Int64.minValue.toInt, Int64.maxValue.toInt)

/-- The value of a given type that stands for an integer, if the type has one. -/
def ofInt? (p : Primitive) (n : Int) : Option Value :=
  if (range p).1 ≤ n ∧ n ≤ (range p).2 then
    some (ofBits p (n % Nat.pow 256 p.size.toNat).toNat)
  else none

/-- The octets of a value, the lowest first. -/
def encode (v : Value) : Bytes :=
  LittleEndian.encode v.primitive.size.toNat v.bits

/-- The value of a given type that is stored in the given octets, if there are as many as the type
is wide. -/
def decode? (p : Primitive) (bytes : Bytes) : Option Value :=
  if bytes.length = p.size.toNat then some (ofBits p (LittleEndian.decode bytes)) else none

/-- A value in decimal. -/
def text (v : Value) : String :=
  toString v.toInt

@[simp] theorem primitive_ofBits (p : Primitive) (n : Nat) : (ofBits p n).primitive = p := by
  cases p <;> rfl

@[simp] theorem length_encode (v : Value) : v.encode.length = v.primitive.size.toNat := by
  simp [encode]

end Value

end WasiHost
