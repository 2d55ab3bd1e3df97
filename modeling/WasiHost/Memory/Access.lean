import WasiHost.Layout.Record
import WasiHost.Memory.Basic
import WasiHost.Text.Utf8

/-!
# Accesses to guest memory

An access reads and writes guest memory step by step. It can fail on the way, and then what it wrote
before stays written. Accesses of several steps check what they can before the first write.
-/

namespace WasiHost

/-- An access to guest memory. -/
abbrev Access := EStateM CallError Memory

namespace Access

/-- The access that only reads. -/
def reading {α : Type} (f : Memory → Except CallError α) : Access α := fun memory =>
  match f memory with
  | .ok a => .ok a memory
  | .error error => .error error memory

/-- The access that writes at once or fails at once. -/
def updating (f : Memory → Except CallError Memory) : Access Unit := fun memory =>
  match f memory with
  | .ok memory => .ok () memory
  | .error error => .error error memory

/-- An outcome that the memory has no part in. -/
def lift {α : Type} (outcome : Except ErrNo α) : Access α :=
  match outcome with
  | .ok a => pure a
  | .error errno => throw (.guest errno)

/-- The octets of a range. -/
def slice (address length : UInt32) : Access Bytes :=
  reading fun memory => memory.slice address length

/-- Refuses a range that a write would be refused at. -/
def check (address length : UInt32) : Access Unit :=
  reading fun memory => memory.check address length

/-- Puts octets at an address. -/
def write (address : UInt32) (data : Bytes) : Access Unit :=
  updating fun memory => memory.write address data

/-- Puts an octet for every index into a range. -/
def overwrite (address length : UInt32) (octet : Nat → UInt8) : Access Unit :=
  updating fun memory => memory.overwrite address length octet

/-- Puts the `width` lowest octets of a number at an address. -/
def writeWord (width : Nat) (address : UInt32) (n : Nat) : Access Unit :=
  write address (LittleEndian.encode width n)

/-- Puts a 32-bit word at an address. -/
def writeU32 (address : UInt32) (n : UInt32) : Access Unit :=
  writeWord 4 address n.toNat

/-- Puts a 64-bit word at an address. -/
def writeU64 (address : UInt32) (n : UInt64) : Access Unit :=
  writeWord 8 address n.toNat

/-- The text of a range, which must be well-formed. -/
def readText (address length : UInt32) : Access String := do
  let bytes ← slice address length
  match Utf8.decode? bytes with
  | some text => pure text
  | none => throw (.guest .ilSeq)

/-- A record in its packed form at an address. -/
def readRecord {α : Type} (size : UInt32) (unpack : Bytes → Except ErrNo α) (address : UInt32) :
    Access α := do
  let bytes ← slice address size
  lift (unpack bytes)

/-- The sum of an address and a length, unless it is out of range everywhere. -/
def advance (address length : UInt32) : Access UInt32 :=
  match LinearMemory.addWords? address length with
  | some sum => pure sum
  | none => throw (.guest .fault)

/-- Puts strings one after the other from `buffer` on, and where each begins into the words from
`pointers` on. -/
def writeStrings : List Bytes → (buffer pointers : UInt32) → Access Unit
  | [], _, _ => pure ()
  | string :: rest, buffer, pointers => do
    write buffer string
    writeU32 pointers buffer
    let buffer ← advance buffer (UInt32.ofNat string.length)
    let pointers ← advance pointers 4
    writeStrings rest buffer pointers

/-- Puts octets into a range fresh from the guest's allocator, and answers where. -/
def writeFresh (data : Bytes) : Access UInt32 := do
  if data.length < UInt32.size then
    let memory ← get
    match memory.allocate (UInt32.ofNat data.length) with
    | .error error => throw error
    | .ok (address, memory) =>
      set memory
      write address data
      pure address
  else throw (.guest .noMem)

/-- The packed buffers from an address on, `count` of them. -/
def readIoVecsFrom (address : UInt32) : (count : Nat) → Access (List IoVec)
  | 0 => pure []
  | count + 1 => do
    let v ← readRecord IoVec.size IoVec.unpack address
    let rest ← readIoVecsFrom (address + IoVec.size) count
    pure (v :: rest)

/-- A list of packed buffers. The range of the whole list is checked before any is read, so that a
huge count fails at once; an empty list is read without looking at the memory. -/
def readIoVecs (address count : UInt32) : Access (List IoVec) := do
  if count = 0 then pure []
  else if count.toNat * IoVec.size.toNat < UInt32.size then
    let size ← reading Memory.size
    if InRange address (count * IoVec.size) size.toNat then readIoVecsFrom address count.toNat
    else throw (.guest .fault)
  else throw (.guest .fault)

end Access

end WasiHost
