import WasiHost.Proofs.Memory.Gather

/-!
# Arrays of packed buffers

The range of an array is checked once, before any of its elements is read, and the check is made in
words: the length of the array is a product, and the size of the memory has to be a word as well.
The check passes exactly if the array lies inside in exact integers, so it refuses nothing that
could be read element by element and lets nothing pass that could not. The one exception is a memory
that is larger than any word can say: there every array but an empty one is refused, although each
of its elements can be read by itself.

* **`LinearMemory.getElem?_vectorsAt`** — the elements of an array.
* **`Access.readIoVecs_of_size_le`** — an array in a memory whose size is not a word.
* **`Access.ReadsArray`** — what is read is what its elements are, each read by itself.
* **`Access.readIoVecs_ok_iff`** — when an array is read, and as what.
-/

namespace WasiHost

namespace LinearMemory

variable (linear : LinearMemory)

@[simp] theorem length_vectorsAt (address n : Nat) : (linear.vectorsAt address n).length = n := by
  induction n generalizing address with
  | zero => rfl
  | succ n ih => rw [vectorsAt, List.length_cons, ih]

/-- An element of `vectorsAt` stands behind those before it. -/
theorem getElem?_vectorsAt (address : Nat) {n i : Nat} (h : i < n) :
    (linear.vectorsAt address n)[i]? = some (linear.vectorAt (address + i * IoVec.size.toNat)) := by
  -- the first element stands at the address, and the array goes on eight octets behind it
  induction n generalizing address i with
  | zero => cases h
  | succ n ih =>
    cases i with
    | zero =>
      rw [Nat.zero_mul]
      rfl
    | succ i =>
      rw [vectorsAt, List.getElem?_cons_succ, ih _ (Nat.lt_of_succ_lt_succ h), Nat.succ_mul,
        show address + IoVec.size.toNat + i * IoVec.size.toNat =
          address + (i * IoVec.size.toNat + IoVec.size.toNat) by omega]

end LinearMemory

namespace Access

variable {linear : LinearMemory} {address count : UInt32} {vectors : List IoVec} {memory' : Memory}

/-- Of an empty array `Access.readIoVecs` asks nothing, not even that there is a memory. -/
theorem readIoVecs_zero (address : UInt32) (memory : Memory) :
    readIoVecs address 0 memory = .ok [] memory := rfl

/-- `Access.readIoVecs` refuses any array in a memory that is larger than a word can say. -/
theorem readIoVecs_of_size_le (hsize : UInt32.size ≤ linear.bytes.size) (hcount : count ≠ 0)
    (address : UInt32) :
    ∃ errno, readIoVecs address count (.attached linear) =
      .error (.guest errno) (.attached linear) := by
  unfold readIoVecs
  rw [if_neg hcount]
  by_cases htotal : count.toNat * IoVec.size.toNat < UInt32.size
  · have hoverflow : reading Memory.size (.attached linear) =
        .error (.guest .overflow) (.attached linear) := by
      simp only [reading, Memory.size, LinearMemory.size, if_neg (Nat.not_lt_of_le hsize),
        Except.mapError]
    rw [if_pos htotal, bind_of_error hoverflow]
    exact ⟨_, rfl⟩
  · rw [if_neg htotal]
    exact ⟨_, rfl⟩

/-- The address of an element is exact if a word can say it. -/
theorem toNat_element {i : UInt32} (h : address.toNat + i.toNat * IoVec.size.toNat < UInt32.size) :
    (address + i * IoVec.size).toNat = address.toNat + i.toNat * IoVec.size.toNat := by
  -- the distance from the first element is a word because the address is
  have hproduct : (i * IoVec.size).toNat = i.toNat * IoVec.size.toNat := by
    rw [UInt32.toNat_mul]
    exact Nat.mod_eq_of_lt (Nat.lt_of_le_of_lt (Nat.le_add_left _ _) h)
  rw [toNat_add_of_lt (by omega), hproduct]

/-- The buffers of an array are as many as were asked for. Each stands at an address that a word can
say, with everything it takes to compute it, and is what is read there alone. -/
structure ReadsArray (linear : LinearMemory) (address count : UInt32) (vectors : List IoVec) :
    Prop where
  length_eq : vectors.length = count.toNat
  address_lt : ∀ i < count, address.toNat + i.toNat * IoVec.size.toNat < UInt32.size
  element_eq : ∀ i < count,
    vectors[i.toNat]? = some (linear.vectorAt (address.toNat + i.toNat * IoVec.size.toNat))
  alone : ∀ i < count,
    readRecord IoVec.size IoVec.unpack (address + i * IoVec.size) (.attached linear) =
      .ok (linear.vectorAt (address.toNat + i.toNat * IoVec.size.toNat)) (.attached linear)

/-- The array lies inside a memory whose size is a word, unless it is empty. -/
def ArrayInside (linear : LinearMemory) (address count : UInt32) : Prop :=
  count = 0 ∨ address.toNat + count.toNat * IoVec.size.toNat ≤ linear.bytes.size ∧
    linear.bytes.size < UInt32.size

/-- If `ArrayInside` holds of an array, each of its elements lies inside. -/
theorem ArrayInside.element_le (h : ArrayInside linear address count) {i : UInt32}
    (hi : i < count) :
    address.toNat + i.toNat * IoVec.size.toNat + IoVec.size.toNat ≤ linear.bytes.size ∧
      linear.bytes.size < UInt32.size := by
  rcases h with rfl | ⟨hinside, hsize⟩
  · exact absurd hi UInt32.not_lt_zero
  · have hlt := UInt32.lt_iff_toNat_lt.mp hi
    have hwidth : IoVec.size.toNat = 8 := rfl
    rw [hwidth] at hinside ⊢
    omega

/-- What `listAt` finds in an array that lies inside is what each element is, read by itself. -/
theorem ArrayInside.readsArray (h : ArrayInside linear address count) :
    ReadsArray linear address count (linear.listAt address count) := by
  have hlt : ∀ i < count, address.toNat + i.toNat * IoVec.size.toNat < UInt32.size := by
    intro i hi
    have := h.element_le hi
    omega
  refine ⟨linear.length_vectorsAt _ _, hlt, fun i hi => ?_, fun i hi => ?_⟩
  · exact linear.getElem?_vectorsAt _ (UInt32.lt_iff_toNat_lt.mp hi)
  · have haddress := toNat_element (hlt i hi)
    have hinside : (address + i * IoVec.size).toNat + IoVec.size.toNat ≤ linear.bytes.size := by
      rw [haddress]
      exact (h.element_le hi).1
    rw [readRecord_ioVec hinside, haddress]

/-- `readIoVecs_eq_ok_iff` for memories of any size. -/
theorem readIoVecs_eq_ok_iff_arrayInside :
    readIoVecs address count (.attached linear) = .ok vectors memory' ↔
      ArrayInside linear address count ∧ vectors = linear.listAt address count ∧
        memory' = .attached linear := by
  -- a memory whose size is no word refuses every array but an empty one
  by_cases hsize : linear.bytes.size < UInt32.size
  · rw [readIoVecs_eq_ok_iff hsize, ArrayInside]
    simp only [hsize, and_true]
  · by_cases hcount : count = 0
    · subst hcount
      rw [readIoVecs_zero, ArrayInside]
      simp [eq_comm, LinearMemory.listAt, LinearMemory.vectorsAt]
    · obtain ⟨errno, herror⟩ := readIoVecs_of_size_le (Nat.le_of_not_lt hsize) hcount address
      simp [herror, ArrayInside, hcount, hsize]

/-- `Access.readIoVecs` reads an array exactly if it is empty, or lies inside a memory whose size is
a word. -/
theorem readIoVecs_ok_iff (linear : LinearMemory) (address count : UInt32) :
    ((∃ vectors memory', readIoVecs address count (.attached linear) = .ok vectors memory') ↔
        count = 0 ∨ address.toNat + count.toNat * IoVec.size.toNat ≤ linear.bytes.size ∧
          linear.bytes.size < UInt32.size) ∧
      ∀ vectors memory', readIoVecs address count (.attached linear) = .ok vectors memory' →
        memory' = .attached linear ∧ ReadsArray linear address count vectors := by
  simp only [readIoVecs_eq_ok_iff_arrayInside]
  refine ⟨⟨?_, ?_⟩, ?_⟩
  · rintro ⟨_, _, hinside, _⟩
    exact hinside
  · intro hinside
    exact ⟨_, _, hinside, rfl, rfl⟩
  · rintro vectors memory' ⟨hinside, rfl, rfl⟩
    exact ⟨rfl, hinside.readsArray⟩

/-- An array of one element fits in the largest memory there is, and its element is read there by
itself, but the array is not. -/
theorem readIoVecs_largest :
    (0 : UInt32).toNat + (1 : UInt32).toNat * IoVec.size.toNat ≤
        (LinearMemory.zeros UInt32.size).bytes.size ∧
      readRecord IoVec.size IoVec.unpack 0 (.attached (.zeros UInt32.size)) =
        .ok ⟨0, 0⟩ (.attached (.zeros UInt32.size)) ∧
      readIoVecs 0 1 (.attached (.zeros UInt32.size)) =
        .error (.guest .overflow) (.attached (.zeros UInt32.size)) := by
  refine ⟨by decide, by rfl, by rfl⟩

end Access

end WasiHost
