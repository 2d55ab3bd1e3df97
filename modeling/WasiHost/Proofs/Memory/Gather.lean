import WasiHost.Proofs.Memory.Scatter

/-!
# Gathering octets from buffers

A list of buffers can be read exactly if it lies inside the memory, and the octets of the buffers
can be gathered exactly if each buffer does; nothing keeps buffers from overlapping the list, or
each other. What is read is then a function of the octets of the memory alone. Since buffers may
overlap, all of them together can be longer than the memory, and then their length need not be a
word.

* **`LinearMemory.listAt`**, **`LinearMemory.gathered`** — a list of buffers and their octets.
* **`Access.readIoVecs_eq_ok_iff`** — when a list of buffers can be read.
* **`Memory.gather_eq_ok_iff`**, **`Memory.gatherText_eq_ok_iff`** — when buffers can be gathered.
-/

namespace WasiHost

open IoVec

namespace LinearMemory

/-- The buffer whose two words stand at an address. -/
def vectorAt (linear : LinearMemory) (address : Nat) : IoVec :=
  { buf := UInt32.ofNat (LittleEndian.decode (linear.bytes.slice address 4))
    len := UInt32.ofNat (LittleEndian.decode (linear.bytes.slice (address + 4) 4)) }

/-- The buffers that stand one after the other from an address on. -/
def vectorsAt (linear : LinearMemory) (address : Nat) : (count : Nat) → List IoVec
  | 0 => []
  | count + 1 => linear.vectorAt address :: linear.vectorsAt (address + IoVec.size.toNat) count

/-- The buffers of a list, by where it is and how many they are. -/
def listAt (linear : LinearMemory) (buffers count : UInt32) : List IoVec :=
  linear.vectorsAt buffers.toNat count.toNat

/-- The octets in a buffer. -/
def held (linear : LinearMemory) (v : IoVec) : Bytes :=
  linear.bytes.slice v.buf.toNat v.len.toNat

/-- The octets in buffers, one buffer after the other. -/
def gathered (linear : LinearMemory) (vectors : List IoVec) : Bytes :=
  (vectors.map linear.held).flatten

/-- `gathered` octets are as many as the buffers have room for, overlaps counted twice. -/
theorem length_gathered (linear : LinearMemory) (vectors : List IoVec) :
    (linear.gathered vectors).length = room vectors := by
  induction vectors with
  | nil => rfl
  | cons v rest ih =>
    rw [gathered, List.map_cons, List.flatten_cons, List.length_append, held, Octets.length_slice,
      room_cons]
    exact congrArg _ ih

/-- `IoVec.unpack` of the eight octets of a list entry gives the two words they are. -/
theorem unpack_slice (linear : LinearMemory) (address : Nat) :
    IoVec.unpack (linear.bytes.slice address IoVec.size.toNat) = .ok (linear.vectorAt address) := by
  have hbuf : ((linear.bytes.slice address 8).drop 0).take 4 = linear.bytes.slice address 4 :=
    Octets.take_drop_slice _ _ (by decide)
  have hlen : ((linear.bytes.slice address 8).drop 4).take 4 = linear.bytes.slice (address + 4) 4 :=
    Octets.take_drop_slice _ _ (by decide)
  have hsize : IoVec.size.toNat = 8 := rfl
  rw [IoVec.unpack, if_pos (Octets.length_slice _ _ _), hsize]
  simp only [wordAt, hbuf, hlen, vectorAt]

end LinearMemory

namespace Access

variable {linear : LinearMemory} {memory' : Memory} {vectors : List IoVec}
  {address count : UInt32}

/-! ## The list of buffers

`readIoVecs` compares the range of the list with the memory first, in words, and then reads entry by
entry. The comparison is exact once the size of the memory is a word, and no later step fails. -/

/-- One entry is read wherever its eight octets lie inside. -/
theorem readRecord_ioVec (h : address.toNat + IoVec.size.toNat ≤ linear.bytes.size) :
    readRecord IoVec.size IoVec.unpack address (.attached linear) =
      .ok (linear.vectorAt address.toNat) (.attached linear) := by
  have hslice : slice address IoVec.size (.attached linear) =
      .ok (linear.bytes.slice address.toNat IoVec.size.toNat) (.attached linear) :=
    reading_eq_ok_iff.mpr ⟨Memory.slice_eq_ok_iff.mpr ⟨linear, rfl, h, rfl⟩, rfl⟩
  rw [readRecord, bind_of_ok hslice, linear.unpack_slice]
  rfl

/-- The addresses of the buffers do not leave the range of a word before the list ends, so
`readIoVecsFrom` reads them where `listAt` has them. -/
theorem readIoVecsFrom_eq {n : Nat} (hsize : linear.bytes.size < UInt32.size)
    (h : address.toNat + n * IoVec.size.toNat ≤ linear.bytes.size) :
    readIoVecsFrom address n (.attached linear) =
      .ok (linear.vectorsAt address.toNat n) (.attached linear) := by
  have hword : UInt32.size = 2 ^ 32 := rfl
  -- induction on the number of entries, each eight octets behind the one before
  induction n generalizing address with
  | zero => rfl
  | succ n ih =>
    rw [Nat.succ_mul] at h
    have hnext : (address + IoVec.size).toNat = address.toNat + IoVec.size.toNat :=
      toNat_add_of_lt (by omega)
    have hrest := @ih (address + IoVec.size) (by omega)
    rw [readIoVecsFrom, bind_of_ok (readRecord_ioVec (by omega)), bind_of_ok hrest, hnext]
    rfl

/-- `Access.readIoVecs` reads a list that is not empty exactly if it lies inside. -/
theorem readIoVecs_eq_ok_iff (hsize : linear.bytes.size < UInt32.size) :
    readIoVecs address count (.attached linear) = .ok vectors memory' ↔
      (count = 0 ∨ address.toNat + count.toNat * IoVec.size.toNat ≤ linear.bytes.size) ∧
        vectors = linear.listAt address count ∧ memory' = .attached linear := by
  unfold readIoVecs
  by_cases hzero : count = 0
  · subst hzero
    rw [if_pos rfl]
    simp only [pure, EStateM.pure, EStateM.Result.ok.injEq, true_or, true_and, eq_comm]
    rfl
  rw [if_neg hzero]
  -- a product that is no word is refused, and then the list does not lie inside a memory whose size
  -- is one
  by_cases htotal : count.toNat * IoVec.size.toNat < UInt32.size
  · have hlength : (count * IoVec.size).toNat = count.toNat * IoVec.size.toNat := by
      rw [UInt32.toNat_mul]
      exact Nat.mod_eq_of_lt htotal
    have hread : reading Memory.size (.attached linear) =
        .ok (UInt32.ofNat linear.bytes.size) (.attached linear) := by
      refine reading_eq_ok_iff.mpr ⟨?_, rfl⟩
      rw [Memory.size, LinearMemory.size, if_pos hsize]
      rfl
    have hrange : InRange address (count * IoVec.size) (UInt32.ofNat linear.bytes.size).toNat ↔
        address.toNat + count.toNat * IoVec.size.toNat ≤ linear.bytes.size := by
      rw [InRange, hlength, UInt32.toNat_ofNat_of_lt' hsize]
    rw [if_pos htotal, bind_of_ok hread]
    by_cases hinside : address.toNat + count.toNat * IoVec.size.toNat ≤ linear.bytes.size
    · rw [if_pos (hrange.mpr hinside), readIoVecsFrom_eq hsize hinside]
      simp only [EStateM.Result.ok.injEq, hinside, or_true, true_and, eq_comm, LinearMemory.listAt]
    · rw [if_neg (mt hrange.mp hinside)]
      exact iff_of_false (fun h => by cases h) fun h => h.1.elim hzero hinside
  · have hinside : ¬ address.toNat + count.toNat * IoVec.size.toNat ≤ linear.bytes.size := by omega
    rw [if_neg htotal]
    exact iff_of_false (fun h => by cases h) fun h => h.1.elim hzero hinside

end Access

namespace Memory

variable {linear : LinearMemory} {vectors : List IoVec} {bytes : Bytes}

/-! ## The octets of the buffers

Gathering reads the buffers one by one and refuses the first that lies outside, so it succeeds
exactly if all of them lie inside. -/

/-- Gathering succeeds exactly if every buffer lies inside, and finds `LinearMemory.gathered`. -/
theorem gather_eq_ok_iff :
    (attached linear).gather vectors = .ok bytes ↔
      (∀ v ∈ vectors, InRange v.buf v.len linear.bytes.size) ∧ bytes = linear.gathered vectors := by
  induction vectors generalizing bytes with
  | nil => simp [gather, LinearMemory.gathered, eq_comm]
  | cons v rest ih =>
    have hgathered : linear.gathered (v :: rest) = linear.held v ++ linear.gathered rest := rfl
    rw [gather, List.forall_mem_cons, hgathered]
    -- a buffer outside makes both sides fail; one inside leaves it to the others
    by_cases hv : InRange v.buf v.len linear.bytes.size
    · have hslice : (attached linear).slice v.buf v.len = .ok (linear.held v) :=
        slice_eq_ok_iff.mpr ⟨linear, rfl, hv, rfl⟩
      rw [hslice]
      cases hgather : (attached linear).gather rest with
      | ok more =>
        obtain ⟨hrest, rfl⟩ := ih.mp hgather
        constructor
        · intro h
          cases h
          exact ⟨⟨hv, hrest⟩, rfl⟩
        · rintro ⟨_, rfl⟩
          rfl
      | error e =>
        constructor
        · intro h
          cases h
        · rintro ⟨⟨_, hrest⟩, _⟩
          cases hgather.symm.trans (ih.mpr ⟨hrest, rfl⟩)
    · cases hslice : (attached linear).slice v.buf v.len with
      | ok octets =>
        obtain ⟨_, hlinear, hin, _⟩ := slice_eq_ok_iff.mp hslice
        cases hlinear
        exact absurd hin hv
      | error e => simp [hv]

/-- `gatherText` has the text of buffers if all of them together are not too long to be counted. -/
theorem gatherText_eq_ok_iff {text : String} {moved : UInt32} :
    (attached linear).gatherText vectors = .ok (text, moved) ↔
      (∀ v ∈ vectors, InRange v.buf v.len linear.bytes.size) ∧ room vectors < UInt32.size ∧
        text = Utf8.decodeLossy (linear.gathered vectors) ∧
        moved = UInt32.ofNat (room vectors) := by
  unfold gatherText
  cases hgather : (attached linear).gather vectors with
  | error e =>
    have hout : ¬ ∀ v ∈ vectors, InRange v.buf v.len linear.bytes.size := by
      intro hin
      cases hgather.symm.trans (gather_eq_ok_iff.mpr ⟨hin, rfl⟩)
    simp [hout]
  | ok bytes =>
    obtain ⟨hin, rfl⟩ := gather_eq_ok_iff.mp hgather
    simp only [linear.length_gathered]
    rw [and_iff_right hin]
    by_cases htotal : room vectors < UInt32.size
    · simp [htotal, eq_comm]
    · simp [htotal]

end Memory

end WasiHost
