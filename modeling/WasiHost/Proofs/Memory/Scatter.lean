import Mathlib.Tactic.ByContra
import WasiHost.Memory.Vectors
import WasiHost.Proofs.Memory.Access

/-!
# Scattering octets over buffers

Scattering a source fills the buffers in the order of the list, as far as the source reaches. When
it succeeds it has moved as many octets as there are in the source and fit in the buffers, and
nothing but the filled parts of the buffers has changed. If no two buffers overlap, gathering the
filled parts gives back what was moved.

* **`pour`** — the memory afterwards, as a function on the octets alone.
* **`scatter_eq_ok`** — a scatter that succeeds has poured, and tells the number of octets moved.
* **`octetAt_pour`**, **`gather_pour`** — what is outside and inside the filled parts.
-/

namespace WasiHost

namespace IoVec

/-- The indices a buffer covers. -/
def Covers (v : IoVec) (i : Nat) : Prop :=
  v.buf.toNat ≤ i ∧ i < v.buf.toNat + v.len.toNat

/-- No index is in both buffers. -/
def Apart (v w : IoVec) : Prop :=
  ∀ i, v.Covers i → ¬ w.Covers i

/-- No index of the buffer is among `length` indices from an address on. -/
def ApartFrom (v : IoVec) (address : UInt32) (length : Nat) : Prop :=
  ∀ i, v.Covers i → ¬ (address.toNat ≤ i ∧ i < address.toNat + length)

/-- How many octets fit in buffers, in exact integers. -/
def room : List IoVec → Nat
  | [] => 0
  | v :: rest => v.len.toNat + room rest

/-- The parts of buffers that `n` octets fill, one buffer after the other. -/
def filled : List IoVec → Nat → List IoVec
  | [], _ => []
  | v :: rest, n =>
    if n = 0 then []
    else { v with len := UInt32.ofNat (min v.len.toNat n) } :: filled rest (n - v.len.toNat)

@[simp] theorem room_nil : room [] = 0 := rfl

@[simp] theorem room_cons (v : IoVec) (rest : List IoVec) :
    room (v :: rest) = v.len.toNat + room rest := rfl

@[simp] theorem filled_zero (vectors : List IoVec) : filled vectors 0 = [] := by
  cases vectors <;> simp [filled]

/-- The filled part of a buffer is as long as the octets it takes. -/
theorem toNat_len_filled (v : IoVec) (n : Nat) :
    (UInt32.ofNat (min v.len.toNat n)).toNat = min v.len.toNat n := by
  have := v.len.toNat_lt
  rw [UInt32.toNat_ofNat']
  exact Nat.mod_eq_of_lt (by omega)

/-- What a part in `filled` covers, its buffer covers. -/
theorem exists_mem_of_mem_filled {vectors : List IoVec} {n : Nat} {w : IoVec}
    (h : w ∈ filled vectors n) : ∃ v ∈ vectors, ∀ i, w.Covers i → v.Covers i := by
  induction vectors generalizing n with
  | nil => simp [filled] at h
  | cons v rest ih =>
    rw [filled] at h
    split at h
    · simp at h
    · rcases List.mem_cons.mp h with rfl | h
      · refine ⟨v, by simp, fun i hi => ⟨hi.1, ?_⟩⟩
        have hhi := hi.2
        -- what is filled of a buffer is not longer than the buffer
        simp only [toNat_len_filled] at hhi
        omega
      · obtain ⟨v', hmem, hcovers⟩ := ih h
        exact ⟨v', List.mem_cons_of_mem _ hmem, hcovers⟩

end IoVec

open IoVec

namespace LinearMemory

/-! ## The memory after a scatter

`pour` is the scatter without its failures, a function of memories: where the scatter succeeds, this
is what it has done (`scatter_eq_ok`). Nothing here asks whether buffers overlap, except where it is
said. -/

/-- Puts the source into the buffers one by one, until it is used up. -/
def pour (memory : LinearMemory) : List IoVec → Bytes → LinearMemory
  | [], _ => memory
  | v :: rest, source =>
    if source = [] then memory
    else (memory.write v.buf (source.take v.len.toNat)).pour rest (source.drop v.len.toNat)

@[simp] theorem size_write (memory : LinearMemory) (address : UInt32) (data : Bytes) :
    (memory.write address data).bytes.size = memory.bytes.size :=
  Octets.size_write _ _ _

@[simp] theorem size_pour (memory : LinearMemory) (vectors : List IoVec) (source : Bytes) :
    (memory.pour vectors source).bytes.size = memory.bytes.size := by
  induction vectors generalizing memory source with
  | nil => rfl
  | cons v rest ih =>
    rw [pour]
    split
    · rfl
    · rw [ih, size_write]

theorem pour_nil (memory : LinearMemory) (vectors : List IoVec) :
    memory.pour vectors [] = memory := by
  cases vectors <;> simp [pour]

/-- The part of the first buffer that is filled is as long as its chunk of the source. -/
theorem length_chunk (v : IoVec) (source : Bytes) :
    (source.take v.len.toNat).length = min v.len.toNat source.length :=
  List.length_take

/-- Whether all buffers that a source reaches lie inside. -/
def Fits (memory : LinearMemory) (vectors : List IoVec) (source : Bytes) : Prop :=
  ∀ w ∈ filled vectors source.length, InRange w.buf w.len memory.bytes.size

/-- `Fits` fills the first buffer as far as the source reaches, and the others by what is left of
the source. -/
theorem fits_cons {memory : LinearMemory} {v : IoVec} {rest : List IoVec} {source : Bytes}
    (hsource : source ≠ []) :
    memory.Fits (v :: rest) source ↔
      v.buf.toNat + min v.len.toNat source.length ≤ memory.bytes.size ∧
        memory.Fits rest (source.drop v.len.toNat) := by
  -- the first buffer takes its part, and the rest of the source goes on
  have hlength : source.length ≠ 0 := by simpa using hsource
  simp only [Fits, filled, if_neg hlength, List.forall_mem_cons, InRange, toNat_len_filled,
    List.length_drop]

/-- `pour` changes nothing outside the filled parts. -/
theorem octetAt_pour {memory : LinearMemory} {vectors : List IoVec} {source : Bytes} {i : Nat}
    (hfits : memory.Fits vectors source)
    (hi : ∀ w ∈ filled vectors source.length, ¬ w.Covers i) :
    (memory.pour vectors source).bytes.octetAt i = memory.bytes.octetAt i := by
  induction vectors generalizing memory source with
  | nil => rfl
  | cons v rest ih =>
    rw [pour]
    split
    · rfl
    · next hsource =>
      have hlength : source.length ≠ 0 := by simpa using hsource
      obtain ⟨hfirst, hrest⟩ := (fits_cons hsource).mp hfits
      simp only [filled, if_neg hlength, List.forall_mem_cons, Covers, toNat_len_filled] at hi
      have htail : ∀ w ∈ filled rest (source.drop v.len.toNat).length, ¬ w.Covers i := by
        rw [List.length_drop]
        exact hi.2
      have hkeep : memory.bytes.size = (memory.write v.buf (source.take v.len.toNat)).bytes.size :=
        (size_write _ _ _).symm
      rw [ih (by rwa [Fits, ← hkeep]) htail]
      refine Octets.octetAt_write_of_not_mem _ ?_ ?_
      · rwa [length_chunk]
      · rw [length_chunk]
        exact hi.1

/-- A chunk and what is taken behind it are a prefix of the source. -/
theorem take_chunk_append (source : Bytes) (k n : Nat) :
    source.take (min k n) ++ (source.drop k).take (n - k) = source.take n := by
  rcases Nat.le_total n k with h | h
  · rw [Nat.min_eq_right h, Nat.sub_eq_zero_of_le h, List.take_zero, List.append_nil]
  · rw [Nat.min_eq_left h, ← List.take_add, Nat.add_sub_cancel' h]

/-- If no two buffers overlap, `Memory.gather` of the filled parts has the source in order. -/
theorem gather_pour {memory : LinearMemory} {vectors : List IoVec} {source : Bytes} {n : Nat}
    (hfits : memory.Fits vectors source) (hapart : vectors.Pairwise Apart)
    (hsource : n ≤ source.length) (hroom : n ≤ room vectors) :
    (Memory.attached (memory.pour vectors source)).gather (filled vectors n) =
      .ok (source.take n) := by
  induction vectors generalizing memory source n with
  | nil =>
    have hzero : n = 0 := by simpa using hroom
    simp [hzero, filled, Memory.gather]
  | cons v rest ih =>
    -- nothing is gathered from no octets; otherwise the first buffer has some
    by_cases hzero : n = 0
    · simp [hzero, Memory.gather]
    · have hne : source ≠ [] := by
        rintro rfl
        exact hzero (by simpa using hsource)
      obtain ⟨hfirst, hrest⟩ := (fits_cons hne).mp hfits
      obtain ⟨hv, htail⟩ := List.pairwise_cons.mp hapart
      rw [room_cons] at hroom
      have hfits' : (memory.write v.buf (source.take v.len.toNat)).Fits rest
          (source.drop v.len.toNat) := by
        rw [Fits, size_write]
        exact hrest
      -- the later buffers are apart from the first, so its octets stay
      have hslice : ((memory.write v.buf (source.take v.len.toNat)).pour rest
          (source.drop v.len.toNat)).bytes.slice v.buf.toNat (min v.len.toNat n) =
          source.take (min v.len.toNat n) := by
        rw [Octets.slice_congr (b := (memory.write v.buf (source.take v.len.toNat)).bytes)]
        · rw [write, Octets.slice_write _ (by rwa [length_chunk]) (by rw [length_chunk]; omega),
            List.take_take, Nat.min_eq_left (Nat.min_le_left _ _)]
        · intro i hlo hhi
          refine octetAt_pour hfits' fun w hw hcovers => ?_
          obtain ⟨v', hmem, hsub⟩ := exists_mem_of_mem_filled hw
          exact hv v' hmem i ⟨hlo, by omega⟩ (hsub i hcovers)
      have hmore := ih hfits' htail (n := n - v.len.toNat) (by rw [List.length_drop]; omega)
        (by omega)
      have hread : (Memory.attached ((memory.write v.buf (source.take v.len.toNat)).pour rest
          (source.drop v.len.toNat))).slice v.buf (UInt32.ofNat (min v.len.toNat n)) =
          .ok (source.take (min v.len.toNat n)) := by
        rw [Memory.slice_eq_ok_iff]
        refine ⟨_, rfl, ?_, ?_⟩
        · rw [InRange, toNat_len_filled, size_pour, size_write]
          omega
        · rw [toNat_len_filled, hslice]
      rw [pour, if_neg hne, filled, if_neg hzero, Memory.gather, hread]
      simp only [hmore]
      rw [take_chunk_append]

/-- Only the octets that fit count for `pour`. -/
theorem pour_take (memory : LinearMemory) (vectors : List IoVec) (source : Bytes) :
    memory.pour vectors (source.take (min source.length (room vectors))) =
      memory.pour vectors source := by
  induction vectors generalizing memory source with
  | nil => rfl
  | cons v rest ih =>
    have hrest := ih (memory.write v.buf (source.take v.len.toNat)) (source.drop v.len.toNat)
    rw [List.length_drop] at hrest
    rw [room_cons]
    generalize hn : min source.length (v.len.toNat + room rest) = n
    have hn' : min (source.length - v.len.toNat) (room rest) = n - v.len.toNat := by omega
    have hchunk : (source.take n).take v.len.toNat = source.take v.len.toNat := by
      rw [List.take_take, List.take_eq_take_iff]
      omega
    rw [hn', ← List.drop_take] at hrest
    by_cases hsource : source = []
    · rw [hsource, List.take_nil]
    · rw [pour, pour, hchunk, hrest, if_neg hsource]
      split
      · next hnil =>
        -- nothing fits, so the first buffer is empty and the rest takes nothing
        have hzero : v.len.toNat = 0 := by
          have := congrArg List.length hnil
          rw [List.length_take, List.length_nil] at this
          have := List.length_pos_iff.mpr hsource
          omega
        rw [← hrest, hnil, List.drop_nil, pour_nil, hzero, List.take_zero]
        rfl
      · rfl

end LinearMemory

namespace Memory

/-- `Memory.gather` has the same octets from memories that agree on the buffers. -/
theorem gather_congr {a b : LinearMemory} {vectors : List IoVec}
    (hsize : a.bytes.size = b.bytes.size)
    (h : ∀ v ∈ vectors, ∀ i, v.Covers i → a.bytes.octetAt i = b.bytes.octetAt i) :
    (attached a).gather vectors = (attached b).gather vectors := by
  induction vectors with
  | nil => rfl
  | cons v rest ih =>
    obtain ⟨hv, hrest⟩ := List.forall_mem_cons.mp h
    have hslice : (attached a).slice v.buf v.len = (attached b).slice v.buf v.len := by
      unfold slice LinearMemory.slice
      simp only [hsize]
      rw [Octets.slice_congr fun i hlo hhi => hv i ⟨hlo, hhi⟩]
    rw [gather, gather, hslice, ih hrest]

/-! ## What a read leaves behind

Reading scatters what there is and stores how much of it fitted. `Delivers` is what the guest finds
then, at whatever addresses it wanted it. -/

/-- The octets were put into the buffers in order, and then their number at an address. -/
structure Delivers (before : Memory) (vectors : List IoVec) (address : UInt32) (data : Bytes)
    (after : Memory) : Prop where
  poured : ∃ linear, before = .attached linear ∧
    after = .attached ((linear.pour vectors data).write address (LittleEndian.encode 4 data.length))
  length_lt : data.length < UInt32.size
  count : after.readU32 address = .ok (UInt32.ofNat data.length)
  /-- If nothing overlaps, the filled parts of the buffers hold the octets. -/
  octets : vectors.Pairwise Apart → (∀ v ∈ vectors, v.ApartFrom address 4) →
    after.gather (filled vectors data.length) = .ok data

end Memory

namespace Access

open LinearMemory

variable {linear : LinearMemory} {memory' : Memory} {vectors : List IoVec} {source : Bytes}
  {moved : UInt32}

/-- A scatter that succeeds has poured, and has counted on from `copied`. -/
theorem scatterFrom_eq_ok {copied : UInt32}
    (h : scatterFrom copied vectors source (.attached linear) = .ok moved memory') :
    memory' = .attached (linear.pour vectors source) ∧ linear.Fits vectors source ∧
      moved.toNat = copied.toNat + min source.length (room vectors) := by
  -- the rest of the list starts with another memory, a shorter source and a greater count
  induction vectors generalizing linear source copied with
  | nil =>
    cases h
    exact ⟨rfl, by simp [Fits, filled], by simp⟩
  | cons v rest ih =>
    rw [scatterFrom] at h
    by_cases hsource : source = []
    · rw [if_pos hsource] at h
      cases h
      subst hsource
      exact ⟨by rw [pour_nil], by simp [Fits], by simp⟩
    · rw [if_neg hsource] at h
      obtain ⟨_, m, hwrite, hrest⟩ := bind_eq_ok_iff.mp h
      obtain ⟨_, hlinear, hlength, hrange, rfl⟩ :=
        Memory.write_eq_ok_iff.mp (write_eq_ok_iff.mp hwrite)
      cases hlinear
      rw [length_chunk] at hlength hrange
      cases hadd : addWords? copied (UInt32.ofNat (source.take v.len.toNat).length) with
      | none =>
        rw [hadd] at hrest
        cases hrest
      | some copied' =>
        rw [hadd] at hrest
        obtain ⟨hmemory, hfits, hmoved⟩ := ih hrest
        have hcopied := (addWords?_eq_some_iff.mp hadd).2
        rw [length_chunk, toNat_len_filled] at hcopied
        refine ⟨?_, ?_, ?_⟩
        · rw [hmemory, pour, if_neg hsource]
        · rw [fits_cons hsource]
          exact ⟨hrange, by rwa [Fits, size_write] at hfits⟩
        · rw [room_cons, hmoved, hcopied, List.length_drop]
          omega

/-- `Access.scatter` that succeeds was `pour` of the source and tells how much of it was moved. -/
theorem scatter_eq_ok (h : scatter vectors source (.attached linear) = .ok moved memory') :
    memory' = .attached (linear.pour vectors source) ∧ linear.Fits vectors source ∧
      moved.toNat = min source.length (room vectors) := by
  obtain ⟨hmemory, hfits, hmoved⟩ := scatterFrom_eq_ok h
  exact ⟨hmemory, hfits, by simpa using hmoved⟩

/-- `Access.scatter` moves no bounds, so a check that passes goes on passing. -/
theorem check_of_scatter {before poured : Memory} {address : UInt32}
    (hcheck : before.check address 4 = .ok ())
    (hscatter : scatter vectors source before = .ok moved poured) :
    poured.check address 4 = .ok () := by
  obtain ⟨linear, rfl, hrange⟩ := Memory.check_eq_ok_iff.mp hcheck
  obtain ⟨rfl, _, _⟩ := scatter_eq_ok hscatter
  rw [Memory.check_eq_ok_iff]
  exact ⟨_, rfl, by rwa [size_pour]⟩

/-- Scattering a source and then storing how much was moved `Delivers` that much of it. -/
theorem delivers_of_scatter {before poured after : Memory} {address : UInt32}
    (hcheck : before.check address 4 = .ok ())
    (hscatter : scatter vectors source before = .ok moved poured)
    (hstore : writeU32 address moved poured = .ok () after) :
    moved.toNat = min source.length (room vectors) ∧
      before.Delivers vectors address (source.take moved.toNat) after := by
  obtain ⟨linear, rfl, _⟩ := Memory.check_eq_ok_iff.mp hcheck
  obtain ⟨rfl, hfits, hmoved⟩ := scatter_eq_ok hscatter
  have hlength : (source.take moved.toNat).length = moved.toNat := by
    rw [List.length_take]
    omega
  have hread := readU32_of_writeU32 hstore
  obtain ⟨_, hlinear, _, hfit, hafter⟩ := Memory.write_eq_ok_iff.mp (write_eq_ok_iff.mp hstore)
  cases hlinear
  refine ⟨hmoved, ⟨linear, rfl, ?_⟩, ?_, ?_, ?_⟩
  · rw [hafter, hlength, hmoved, pour_take]
  · rw [hlength]
    exact moved.toNat_lt
  · rw [hlength, UInt32.ofNat_toNat, hread]
  · intro hapart hcell
    rw [hlength, hafter, ← gather_pour hfits hapart (by omega) (by omega)]
    -- the count is stored apart from the buffers, so they are gathered as before
    refine Memory.gather_congr (size_write _ _ _) fun w hw i hi => ?_
    obtain ⟨v, hv, hsub⟩ := exists_mem_of_mem_filled hw
    refine Octets.octetAt_write_of_not_mem _ hfit ?_
    rw [LittleEndian.length_encode]
    exact hcell v hv i (hsub i hi)

end Access

end WasiHost
