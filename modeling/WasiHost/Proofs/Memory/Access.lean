import Mathlib.Tactic.ByContra
import WasiHost.Memory.Vectors
import WasiHost.Proofs.Frame

/-!
# What accesses find and leave

An access that succeeds works on an attached memory and on a range inside it. A write changes the
octets of its range and no others, and a read of the range finds what was written. Accesses that
only read leave the memory as it is, and a single write that fails has done nothing.

* **`Octets.octetAt_write_of_mem`**, **`Octets.slice_write`** — what is there after a write.
* **`Memory.check_eq_ok_iff`**, **`Memory.write_eq_ok_iff`** — when an access succeeds.
* **`Access.keeps_readIoVecs`**, **`Access.failsClean_write`** — the frames of accesses.
* **`Access.writeWord_ok_iff`** — a word can be stored exactly where a check passes.
-/

namespace WasiHost

theorem toNat_add_of_lt {a b : UInt32} (h : a.toNat + b.toNat < UInt32.size) :
    (a + b).toNat = a.toNat + b.toNat :=
  (UInt32.toNat_add a b).trans (Nat.mod_eq_of_lt h)

namespace LinearMemory

/-- `addWords?` finds the sum in exact integers, and only if a word can say it. -/
theorem addWords?_eq_some_iff {a b c : UInt32} :
    addWords? a b = some c ↔ a.toNat + b.toNat < UInt32.size ∧ c.toNat = a.toNat + b.toNat := by
  rw [addWords?]
  by_cases h : a.toNat + b.toNat < UInt32.size
  · rw [if_pos h, Option.some.injEq, ← UInt32.toNat_inj, toNat_add_of_lt h]
    exact ⟨fun heq => ⟨h, heq.symm⟩, fun heq => heq.2.symm⟩
  · rw [if_neg h]
    constructor
    · intro heq
      cases heq
    · rintro ⟨hlt, _⟩
      exact absurd hlt h

end LinearMemory

namespace Octets

/-- After `Octets.write`, an index outside the range holds what it held before. -/
theorem octetAt_write_of_not_mem (octets : Octets) {start : Nat} {data : Bytes} {i : Nat}
    (h : start + data.length ≤ octets.size) (hi : ¬ (start ≤ i ∧ i < start + data.length)) :
    (octets.write start data).octetAt i = octets.octetAt i := by
  by_cases hsize : i < octets.size
  · have hget := getElem?_write octets start data i h
    rw [if_neg hi, getElem?_eq, getElem?_eq, size_write, if_pos hsize, if_pos hsize,
      Option.some.injEq] at hget
    exact hget
  · rw [octetAt_eq_zero _ (by rw [size_write]; omega), octetAt_eq_zero _ (by omega)]

/-- After `Octets.write`, an index inside the range holds the octet written there. -/
theorem octetAt_write_of_mem (octets : Octets) {start : Nat} {data : Bytes} {i : Nat}
    (h : start + data.length ≤ octets.size) (hi : i < data.length) :
    (octets.write start data).octetAt (start + i) = data[i] := by
  have hget := getElem?_write octets start data (start + i) h
  rw [if_pos ⟨by omega, by omega⟩, getElem?_eq, size_write, if_pos (by omega),
    Nat.add_sub_cancel_left, List.getElem?_eq_getElem hi, Option.some.injEq] at hget
  exact hget

/-- Two strings have the same `slice` if they agree on every index of the range. -/
theorem slice_congr {a b : Octets} {start length : Nat}
    (h : ∀ i, start ≤ i → i < start + length → a.octetAt i = b.octetAt i) :
    a.slice start length = b.slice start length := by
  unfold slice
  refine List.map_congr_left fun i hi => ?_
  obtain ⟨hlo, hhi⟩ := List.mem_range'_1.mp hi
  exact h i hlo hhi

/-- A prefix of the range of `write` reads back as that prefix of what was written. -/
theorem slice_write (octets : Octets) {start length : Nat} {data : Bytes}
    (h : start + data.length ≤ octets.size) (hlength : length ≤ data.length) :
    (octets.write start data).slice start length = data.take length := by
  apply List.ext_getElem
  · rw [length_slice, List.length_take, Nat.min_eq_left hlength]
  · intro i hi _
    rw [length_slice] at hi
    simp only [slice, List.getElem_map, List.getElem_range', Nat.one_mul, List.getElem_take]
    exact octetAt_write_of_mem octets h (by omega)

/-- `slice` of a range is read in two parts, one behind the other. -/
theorem slice_append (octets : Octets) (start m n : Nat) :
    octets.slice start (m + n) = octets.slice start m ++ octets.slice (start + m) n := by
  simp only [slice, ← List.map_append, List.range'_append_1]

theorem take_drop_slice (octets : Octets) (start : Nat) {length n m : Nat} (h : n + m ≤ length) :
    ((octets.slice start length).drop n).take m = octets.slice (start + n) m := by
  obtain ⟨rest, rfl⟩ := Nat.exists_eq_add_of_le h
  rw [slice_append, slice_append, List.append_assoc, List.drop_left' (length_slice octets start n),
    List.take_left' (length_slice octets _ m)]

theorem write_slice (octets : Octets) {start length : Nat} (h : start + length ≤ octets.size) :
    octets.write start (octets.slice start length) = octets := by
  have hrange : start + (octets.slice start length).length ≤ octets.size := by
    rwa [length_slice]
  refine ext (size_write _ _ _) fun i => ?_
  -- inside the range the octet written is the one that was read there, outside nothing is written
  by_cases hi : start ≤ i ∧ i < start + (octets.slice start length).length
  · obtain ⟨k, rfl⟩ := Nat.exists_eq_add_of_le hi.1
    rw [octetAt_write_of_mem octets hrange (by omega)]
    simp [slice]
  · exact octetAt_write_of_not_mem octets hrange hi

end Octets

namespace Memory

variable {memory memory' : Memory} {address length : UInt32}

/-! ## When an access succeeds

Each operation on guest memory is characterised once, on every memory, as an equivalence with its
success on the left. The failures are the rest: a fatal one without a memory, and otherwise an error
number. -/

/-- A check passes exactly on an attached memory that has the whole range. Every access with a check
in it asks for no more than `InRange`. -/
theorem check_eq_ok_iff :
    memory.check address length = .ok () ↔
      ∃ linear, memory = .attached linear ∧ InRange address length linear.bytes.size := by
  unfold check
  cases memory with
  | detached => simp
  | attached linear =>
    by_cases h : InRange address length linear.bytes.size <;> simp [h]

/-- A range can be read exactly where `Memory.check` passes, and then its octets are found. -/
theorem slice_eq_ok_iff {bytes : Bytes} :
    memory.slice address length = .ok bytes ↔
      ∃ linear, memory = .attached linear ∧ InRange address length linear.bytes.size ∧
        bytes = linear.bytes.slice address.toNat length.toNat := by
  unfold slice
  cases memory with
  | detached => simp
  | attached linear =>
    simp only [LinearMemory.slice]
    by_cases h : InRange address length linear.bytes.size <;> simp [h, Except.mapError, eq_comm]

/-- `InRange` for the length of given data, if a word can say it, is a matter of where the data
end. -/
theorem inRange_ofNat {data : Bytes} {size : Nat} (h : data.length < UInt32.size) :
    InRange address (UInt32.ofNat data.length) size ↔ address.toNat + data.length ≤ size := by
  rw [InRange, UInt32.toNat_ofNat', Nat.mod_eq_of_lt h]

/-- A write succeeds exactly if a word can say how much is written and the range lies inside. What
it leaves is `LinearMemory.write` of the octets. -/
theorem write_eq_ok_iff {data : Bytes} :
    memory.write address data = .ok memory' ↔
      ∃ linear, memory = .attached linear ∧ data.length < UInt32.size ∧
        address.toNat + data.length ≤ linear.bytes.size ∧
        memory' = .attached (linear.write address data) := by
  unfold write
  -- data that are longer than a word can say are refused on every memory
  by_cases hlength : data.length < UInt32.size
  · rw [if_pos hlength]
    cases memory with
    | detached => simp
    | attached linear =>
      simp only [inRange_ofNat hlength, attached.injEq]
      by_cases h : address.toNat + data.length ≤ linear.bytes.size
      · rw [if_pos h]
        constructor
        · intro heq
          cases heq
          exact ⟨linear, rfl, hlength, h, rfl⟩
        · rintro ⟨_, rfl, _, _, rfl⟩
          rfl
      · rw [if_neg h]
        constructor
        · intro heq
          cases heq
        · rintro ⟨_, rfl, _, hrange, _⟩
          exact absurd hrange h
  · rw [if_neg hlength]
    constructor
    · intro heq
      cases heq
    · rintro ⟨_, _, hlt, _⟩
      exact absurd hlt hlength

/-- Reading a range that leaves the memory is refused with `fault`, however far it leads outside. -/
theorem slice_of_outside {linear : LinearMemory} (h : ¬ InRange address length linear.bytes.size) :
    (attached linear).slice address length = .error (.guest .fault) := by
  simp only [slice, LinearMemory.slice, if_neg h, Except.mapError]

/-- `Memory.write` faults outside the memory, also if the data are longer than a word can say. -/
theorem write_of_outside {linear : LinearMemory} {data : Bytes}
    (h : linear.bytes.size < address.toNat + data.length) :
    (attached linear).write address data = .error (.guest .fault) := by
  unfold write
  by_cases hlength : data.length < UInt32.size
  · rw [if_pos hlength]
    exact if_neg (mt (inRange_ofNat hlength).mp (Nat.not_le_of_lt h))
  · exact if_neg hlength

/-- What was put somewhere by `Memory.write` is there. -/
theorem slice_of_write {data : Bytes} (hlength : data.length = length.toNat)
    (h : memory.write address data = .ok memory') : memory'.slice address length = .ok data := by
  obtain ⟨linear, rfl, _, hrange, rfl⟩ := write_eq_ok_iff.mp h
  rw [slice_eq_ok_iff]
  refine ⟨_, rfl, ?_, ?_⟩
  · rw [hlength] at hrange
    simpa [LinearMemory.write, InRange] using hrange
  · rw [LinearMemory.write, Octets.slice_write _ hrange (by omega),
      List.take_of_length_le (by omega)]

/-- `readWord` gives back what was stored as a word. -/
theorem readWord_write {width : UInt32} {n : Nat} (hn : n < Nat.pow 256 width.toNat)
    (h : memory.write address (LittleEndian.encode width.toNat n) = .ok memory') :
    memory'.readWord address width = .ok n := by
  have hslice := slice_of_write (LittleEndian.length_encode width.toNat n) h
  rw [readWord, hslice]
  simp only [Except.map, LittleEndian.decode_encode, Nat.mod_eq_of_lt hn]

end Memory

/-! ## Accesses step by step

What a property has to know of the steps of an access. Each access is followed once, for every
property that is `Sequential`. -/

namespace Sequential

variable {α : Type} {P : ∀ {α : Type}, Access α → Prop} (hP : Sequential P)

include hP

/-- A step that is already decided: an error number is a refusal, a value is given. -/
theorem outcome (outcome : Except ErrNo α) : P (Access.lift outcome) := by
  cases outcome with
  | ok a => exact hP.pure a
  | error errno => exact hP.refuse errno

/-- Text is read as octets first; octets that are no text are refused by `Utf8.decode?`. -/
theorem readText {address length : UInt32} (hslice : P (Access.slice address length)) :
    P (Access.readText address length) := by
  refine hP.bind hslice fun bytes => ?_
  cases Utf8.decode? bytes with
  | some text => exact hP.pure text
  | none => exact hP.refuse _

/-- `Access.readRecord` reads the octets of a record first, and then unpacks them. -/
theorem readRecord {size address : UInt32} (unpack : Bytes → Except ErrNo α)
    (hslice : P (Access.slice address size)) : P (Access.readRecord size unpack address) :=
  hP.bind hslice fun _ => hP.outcome _

/-- The list of buffers is read one entry after the other, so by induction on the count the property
has to know of `Access.slice` only. -/
theorem readIoVecsFrom (hslice : ∀ address length, P (Access.slice address length))
    (address : UInt32) (count : Nat) : P (Access.readIoVecsFrom address count) := by
  -- induction on the number of entries; the address of the next one is not the same
  induction count generalizing address with
  | zero => exact hP.pure _
  | succ count ih =>
    refine hP.bind (hP.readRecord _ (hslice _ _)) fun v => ?_
    exact hP.bind (ih _) fun rest => hP.pure _

/-- `Access.readIoVecs` compares the number of entries with what the memory has room for before it
reads them: that is the one step which asks for the size of the memory. -/
theorem readIoVecs (hsize : P (Access.reading Memory.size))
    (hslice : ∀ address length, P (Access.slice address length)) (address count : UInt32) :
    P (Access.readIoVecs address count) := by
  unfold Access.readIoVecs
  split
  · exact hP.pure _
  · split
    · refine hP.bind hsize fun size => ?_
      split
      · exact hP.readIoVecsFrom hslice _ _
      · exact hP.refuse _
    · exact hP.refuse _

/-- `Access.advance` reads nothing: it refuses a sum that is no word. -/
theorem advance (address length : UInt32) : P (Access.advance address length) := by
  unfold Access.advance
  cases LinearMemory.addWords? address length with
  | some sum => exact hP.pure sum
  | none => exact hP.refuse _

/-- Strings are stored with their pointers, the two cursors advancing in between. All a property has
to know is `Access.write`. -/
theorem writeStrings (hwrite : ∀ address data, P (Access.write address data))
    (strings : List Bytes) (buffer pointers : UInt32) :
    P (Access.writeStrings strings buffer pointers) := by
  -- induction on the strings; both cursors advance
  induction strings generalizing buffer pointers with
  | nil => exact hP.pure _
  | cons string rest ih =>
    refine hP.bind (hwrite _ _) fun _ => ?_
    refine hP.bind (hwrite _ _) fun _ => ?_
    refine hP.bind (hP.advance _ _) fun buffer' => ?_
    exact hP.bind (hP.advance _ _) fun pointers' => ih buffer' pointers'

/-- Scattering stores a chunk for each buffer until the source is used up. Again `Access.write` is
the only step that reaches memory. -/
theorem scatterFrom (hwrite : ∀ address data, P (Access.write address data)) (copied : UInt32)
    (vectors : List IoVec) (source : Bytes) : P (Access.scatterFrom copied vectors source) := by
  -- induction on the buffers; the source gets shorter as the count grows
  induction vectors generalizing copied source with
  | nil => exact hP.pure _
  | cons v rest ih =>
    rw [Access.scatterFrom]
    split
    · exact hP.pure _
    · refine hP.bind (hwrite _ _) fun _ => ?_
      -- the count of the octets moved so far may leave the range of a word
      cases LinearMemory.addWords? copied (UInt32.ofNat (source.take v.len.toNat).length) with
      | none => exact hP.refuse _
      | some copied' => exact ih copied' _

end Sequential

namespace Access

variable {α : Type} {memory memory' : Memory} {address length : UInt32}

/-! ## Single accesses

An access is an operation on guest memory made into a step. These equivalences take the step apart
again, so that proofs about a body need not unfold `reading` or `updating`. -/

/-- `Access.reading` succeeds with what is read and leaves the memory it was given. -/
theorem reading_eq_ok_iff {f : Memory → Except CallError α} {a : α} :
    reading f memory = .ok a memory' ↔ f memory = .ok a ∧ memory' = memory := by
  unfold reading
  cases f memory <;> simp [eq_comm]

/-- `Access.updating` succeeds exactly if the update does. -/
theorem updating_eq_ok_iff {f : Memory → Except CallError Memory} {u : Unit} :
    updating f memory = .ok u memory' ↔ f memory = .ok memory' := by
  unfold updating
  cases f memory <;> simp

/-- An access that writes succeeds as `Memory.write` does: `Memory.write_eq_ok_iff` says when. -/
theorem write_eq_ok_iff {data : Bytes} {u : Unit} :
    write address data memory = .ok u memory' ↔ memory.write address data = .ok memory' :=
  updating_eq_ok_iff

/-- An access that checks succeeds as `Memory.check` does, and changes nothing. -/
theorem check_eq_ok_iff {u : Unit} :
    check address length memory = .ok u memory' ↔
      memory.check address length = .ok () ∧ memory' = memory :=
  reading_eq_ok_iff

/-! ## Frames

What an access leaves alone is said by `Keeps` if it only reads and by `FailsClean` if it writes. -/

/-- Whether or not it succeeds, `Access.reading` leaves the memory alone. -/
theorem keeps_reading (f : Memory → Except CallError α) : Keeps id (reading f) := by
  intro memory
  rw [reading]
  cases f memory <;> rfl

/-- An update that is refused has not been made. If it succeeds, all may be changed: `Keeps` would
be too much. -/
theorem failsClean_updating (f : Memory → Except CallError Memory) :
    FailsClean id (updating f) := by
  intro memory e memory' h
  rw [updating] at h
  cases hf : f memory with
  | ok _ =>
    rw [hf] at h
    cases h
  | error _ =>
    rw [hf] at h
    cases h
    rfl

theorem keeps_check (address length : UInt32) : Keeps id (check address length) :=
  keeps_reading _

/-- A write is an access of the kind `updating`: it stores all of its data or nothing. -/
theorem failsClean_write (address : UInt32) (data : Bytes) : FailsClean id (write address data) :=
  failsClean_updating _

theorem failsClean_overwrite (address length : UInt32) (octet : Nat → UInt8) :
    FailsClean id (overwrite address length octet) :=
  failsClean_updating _

theorem keeps_readText (address length : UInt32) : Keeps id (readText address length) :=
  (Keeps.sequential id).readText (keeps_reading _)

theorem keeps_readIoVecs (address count : UInt32) : Keeps id (readIoVecs address count) :=
  (Keeps.sequential id).readIoVecs (keeps_reading _) (fun _ _ => keeps_reading _) address count

/-! ## Storing a word

Whether a word can be stored is decided by the range alone, so a body that has checked the range
before will not fail there. -/

/-- A word can be stored exactly where `Memory.check` passes. -/
theorem writeWord_ok_iff (width : UInt32) (n : Nat) :
    (∃ memory', writeWord width.toNat address n memory = .ok () memory') ↔
      memory.check address width = .ok () := by
  -- the width is itself a word, so there are never too many octets
  have hwidth := width.toNat_lt
  simp only [writeWord, write_eq_ok_iff, Memory.write_eq_ok_iff, Memory.check_eq_ok_iff,
    LittleEndian.length_encode, InRange]
  constructor
  · rintro ⟨_, linear, hlinear, _, hrange, _⟩
    exact ⟨linear, hlinear, hrange⟩
  · rintro ⟨linear, hlinear, hrange⟩
    exact ⟨_, linear, hlinear, hwidth, hrange, rfl⟩

/-- `writeWord_ok_iff` for four octets. -/
theorem writeU32_ok_iff (n : UInt32) :
    (∃ memory', writeU32 address n memory = .ok () memory') ↔ memory.check address 4 = .ok () :=
  writeWord_ok_iff 4 n.toNat

/-- `writeWord_ok_iff` for eight octets. -/
theorem writeU64_ok_iff (n : UInt64) :
    (∃ memory', writeU64 address n memory = .ok () memory') ↔ memory.check address 8 = .ok () :=
  writeWord_ok_iff 8 n.toNat

/-- On an attached memory `Access.writeU32` stores four octets exactly if they fit, in little-endian
order. -/
theorem writeU32_eq_ok_iff {linear : LinearMemory} {n : UInt32} :
    writeU32 address n (.attached linear) = .ok () memory' ↔
      address.toNat + 4 ≤ linear.bytes.size ∧
        memory' = .attached (linear.write address (LittleEndian.encode 4 n.toNat)) := by
  have hshort : 4 < UInt32.size := by decide
  refine write_eq_ok_iff.trans (Memory.write_eq_ok_iff.trans ?_)
  simp [LittleEndian.length_encode, hshort]

/-- `readU32` gives back the word that `Access.writeU32` has stored. -/
theorem readU32_of_writeU32 {n : UInt32} (h : writeU32 address n memory = .ok () memory') :
    memory'.readU32 address = .ok n := by
  have hword : memory'.readWord address 4 = .ok n.toNat :=
    Memory.readWord_write (by simpa using n.toNat_lt) (write_eq_ok_iff.mp h)
  rw [Memory.readU32, hword]
  simp [Except.map]

/-- A word of eight octets that was stored is read back, as by `readU32_of_writeU32`. -/
theorem readU64_of_writeU64 {n : UInt64} (h : writeU64 address n memory = .ok () memory') :
    memory'.readU64 address = .ok n := by
  have hword : memory'.readWord address 8 = .ok n.toNat :=
    Memory.readWord_write (by simpa using n.toNat_lt) (write_eq_ok_iff.mp h)
  rw [Memory.readU64, hword]
  simp [Except.map]

end Access

end WasiHost
