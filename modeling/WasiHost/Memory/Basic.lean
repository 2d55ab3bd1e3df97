import WasiHost.Error
import WasiHost.Memory.Octets

/-!
# Guest memory

The memory a host call works on: none at all, while no guest is attached, or a string of octets with
32-bit addresses. Every access names a range and is refused as a whole if any part of the range lies
outside; on a guest that is not attached every access is fatal.
-/

namespace WasiHost

/-- A string of octets with an allocator that hands out ever higher addresses, if there is one. -/
structure LinearMemory where
  bytes : Octets
  /-- The least address the allocator has not handed out yet. -/
  heapTop : Option UInt32 := none
  deriving DecidableEq, Inhabited

/-- The memory a host call works on. -/
inductive Memory where
  /-- No guest is attached. -/
  | detached
  /-- The memory of the attached guest. -/
  | attached (linear : LinearMemory)
  deriving DecidableEq, Inhabited

/-- Whether a range lies inside a memory of a given size. -/
def InRange (address length : UInt32) (size : Nat) : Prop :=
  address.toNat + length.toNat ≤ size

instance (address length : UInt32) (size : Nat) : Decidable (InRange address length size) :=
  inferInstanceAs (Decidable (_ ≤ _))

namespace LinearMemory

/-- A memory of zeros. -/
def zeros (size : Nat) : LinearMemory :=
  { bytes := Octets.zeros size }

/-- The memory with an allocator that hands out addresses from `base` on. -/
def withAllocator (memory : LinearMemory) (base : UInt32) : LinearMemory :=
  { memory with heapTop := some base }

/-- The octets of a range. -/
def slice (memory : LinearMemory) (address length : UInt32) : Except ErrNo Bytes :=
  if InRange address length memory.bytes.size then
    .ok (memory.bytes.slice address.toNat length.toNat)
  else .error .fault

/-- Puts octets into a range. -/
def write (memory : LinearMemory) (address : UInt32) (data : Bytes) : LinearMemory :=
  { memory with bytes := memory.bytes.write address.toNat data }

/-- The size, if it fits in a word. -/
def size (memory : LinearMemory) : Except ErrNo UInt32 :=
  if memory.bytes.size < UInt32.size then .ok (UInt32.ofNat memory.bytes.size) else .error .overflow

/-- The sum of two words, if it fits in a word. -/
def addWords? (a b : UInt32) : Option UInt32 :=
  if a.toNat + b.toNat < UInt32.size then some (a + b) else none

/-- The least multiple of eight that is not below an address, if it fits in a word. -/
def alignEight? (address : UInt32) : Option UInt32 :=
  (addWords? address 7).map fun a => a &&& ~~~(7 : UInt32)

/-- Hands out a fresh range of the given length, at a multiple of eight. -/
def allocate (memory : LinearMemory) (size : UInt32) : Except CallError (UInt32 × LinearMemory) :=
  match memory.heapTop with
  | none => .error (.fatal .noAllocator)
  | some top =>
    match alignEight? top with
    | none => .error (.guest .noMem)
    | some address =>
      match addWords? address size with
      | none => .error (.guest .noMem)
      | some stop =>
        if stop.toNat ≤ memory.bytes.size then
          .ok (address, { memory with heapTop := some stop })
        else .error (.guest .noMem)

end LinearMemory

namespace Memory

/-- The octets of a range. -/
def slice (memory : Memory) (address length : UInt32) : Except CallError Bytes :=
  match memory with
  | detached => .error (.fatal .noMemory)
  | attached linear => (linear.slice address length).mapError .guest

/-- Refuses a range that a write would be refused at. -/
def check (memory : Memory) (address length : UInt32) : Except CallError Unit :=
  match memory with
  | detached => .error (.fatal .noMemory)
  | attached linear =>
    if InRange address length linear.bytes.size then .ok () else .error (.guest .fault)

/-- The size of the memory. -/
def size (memory : Memory) : Except CallError UInt32 :=
  match memory with
  | detached => .error (.fatal .noMemory)
  | attached linear => linear.size.mapError .guest

/-- Puts octets at an address. A string that is longer than any word can say is out of range
everywhere. -/
def write (memory : Memory) (address : UInt32) (data : Bytes) : Except CallError Memory :=
  if data.length < UInt32.size then
    match memory with
    | detached => .error (.fatal .noMemory)
    | attached linear =>
      if InRange address (UInt32.ofNat data.length) linear.bytes.size then
        .ok (attached (linear.write address data))
      else .error (.guest .fault)
  else .error (.guest .fault)

/-- Puts an octet for every index into a range, which is checked before any is asked for. -/
def overwrite (memory : Memory) (address length : UInt32) (octet : Nat → UInt8) :
    Except CallError Memory :=
  match memory with
  | detached => .error (.fatal .noMemory)
  | attached linear =>
    if InRange address length linear.bytes.size then
      .ok (attached (linear.write address ((List.range length.toNat).map octet)))
    else .error (.guest .fault)

/-- Hands out a fresh range through the guest's allocator. -/
def allocate (memory : Memory) (size : UInt32) : Except CallError (UInt32 × Memory) :=
  match memory with
  | detached => .error (.fatal .noAllocator)
  | attached linear =>
    (linear.allocate size).map fun (address, linear) => (address, attached linear)

/-- The word of a given width at an address, as a natural number. -/
def readWord (memory : Memory) (address width : UInt32) : Except CallError Nat :=
  (memory.slice address width).map LittleEndian.decode

/-- The 32-bit word at an address. -/
def readU32 (memory : Memory) (address : UInt32) : Except CallError UInt32 :=
  (memory.readWord address 4).map UInt32.ofNat

/-- The 64-bit word at an address. -/
def readU64 (memory : Memory) (address : UInt32) : Except CallError UInt64 :=
  (memory.readWord address 8).map UInt64.ofNat

end Memory

end WasiHost
