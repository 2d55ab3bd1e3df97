import WasiHost.Proofs.Memory.Arrays
import WasiHost.Proofs.Memory.Chunks
import WasiHost.Proofs.Memory.Reach

/-!
# What accesses look at

An access to guest memory looks at some of it and at nothing else. So on two memories that differ
only in a place it does not look at, it goes the same way, and leaves memories that differ only
there. A write looks at nothing but the size of the memory, however far it gets; a list of buffers
is decoded from its array, and octets are gathered from the buffers.

* **`Access.Overlooks`** — an access that goes the same way whatever is in a place.
* **`Access.overlooks_readIoVecs`**, **`Access.overlooks_scatter`** — the accesses of the stream
  calls.
* **`Memory.SameOutside.eq_of_apart`** — a memory is known if it is known outside two places that
  have no index in common.
-/

namespace WasiHost

open Memory

/-- A memory says its size if that is a word. -/
theorem Memory.exists_of_size {memory : Memory} {size : UInt32} (h : memory.size = .ok size) :
    ∃ linear, memory = .attached linear ∧ linear.bytes.size < UInt32.size ∧
      size.toNat = linear.bytes.size := by
  cases memory with
  | detached => cases h
  | attached linear =>
    rw [Memory.size, LinearMemory.size] at h
    by_cases hsize : linear.bytes.size < UInt32.size
    · rw [if_pos hsize] at h
      cases h
      exact ⟨linear, rfl, hsize, UInt32.toNat_ofNat_of_lt' hsize⟩
    · rw [if_neg hsize] at h
      cases h

namespace LinearMemory

/-- `vectorsAt` is made of the octets where the array stands. -/
theorem vectorsAt_congr {a b : LinearMemory} {address n : Nat}
    (h : ∀ i, address ≤ i → i < address + n * IoVec.size.toNat →
      b.bytes.octetAt i = a.bytes.octetAt i) :
    b.vectorsAt address n = a.vectorsAt address n := by
  induction n generalizing address with
  | zero => rfl
  | succ n ih =>
    have hwidth : IoVec.size.toNat = 8 := rfl
    rw [Nat.succ_mul, hwidth] at h
    -- an entry is two words, and each is the same in both
    have hbuf : b.bytes.slice address 4 = a.bytes.slice address 4 :=
      Octets.slice_congr fun i hlo hhi => h i hlo (by omega)
    have hlen : b.bytes.slice (address + 4) 4 = a.bytes.slice (address + 4) 4 :=
      Octets.slice_congr fun i hlo hhi => h i (by omega) (by omega)
    have hfirst : b.vectorAt address = a.vectorAt address := by
      unfold vectorAt
      rw [hbuf, hlen]
    have hrest : b.vectorsAt (address + 8) n = a.vectorsAt (address + 8) n :=
      ih fun i hlo hhi => h i (by omega) (by rw [hwidth] at hhi; omega)
    rw [vectorsAt, vectorsAt, hfirst, hwidth, hrest]

end LinearMemory

namespace Memory.SameOutside

variable {place other : Nat → Prop} {a b : LinearMemory} {buffers count : UInt32}

/-- `listAt` of a list of buffers apart from the place is the same at both memories. -/
theorem listAt_eq (h : SameOutside place (.attached a) (.attached b))
    (hapart : ∀ i, Spans buffers (count.toNat * IoVec.size.toNat) i → ¬ place i) :
    b.listAt buffers count = a.listAt buffers count := by
  cases h with
  | attached size heapTop octets =>
    exact LinearMemory.vectorsAt_congr fun i hlo hhi => octets i (hapart i ⟨hlo, hhi⟩)

/-- So is `Memory.gather` of buffers apart from it, or its failure. -/
theorem gather_eq {m k : Memory} (h : SameOutside place m k) {vectors : List IoVec}
    (hapart : ∀ v ∈ vectors, ∀ i, v.Covers i → ¬ place i) :
    m.gather vectors = k.gather vectors := by
  cases h with
  | detached => rfl
  | attached size heapTop octets =>
    exact Memory.gather_congr size.symm fun v hv i hi => (octets i (hapart v hv i hi)).symm

/-- The same octets are refused by `Memory.write` at both memories or put into both. -/
theorem write_cases {m k : Memory} (h : SameOutside place m k) (address : UInt32) (data : Bytes) :
    (∃ e, m.write address data = .error e ∧ k.write address data = .error e) ∨
      ∃ m' k', m.write address data = .ok m' ∧ k.write address data = .ok k' ∧
        SameOutside place m' k' := by
  by_cases hlength : data.length < UInt32.size
  · cases h with
    | detached =>
      refine .inl ⟨.fatal .noMemory, ?_, ?_⟩ <;> exact if_pos hlength
    | @attached a b size heapTop octets =>
      by_cases hrange : address.toNat + data.length ≤ a.bytes.size
      · have hrange' : address.toNat + data.length ≤ b.bytes.size := by rwa [size]
        refine .inr ⟨_, _, write_eq_ok_iff.mpr ⟨a, rfl, hlength, hrange, rfl⟩,
          write_eq_ok_iff.mpr ⟨b, rfl, hlength, hrange', rfl⟩, ?_⟩
        refine .attached ?_ heapTop fun i hi => ?_
        · rw [LinearMemory.size_write, LinearMemory.size_write, size]
        · rw [LinearMemory.write, LinearMemory.write]
          -- inside the range both hold the data, so the place may overlap it
          by_cases hmem : address.toNat ≤ i ∧ i < address.toNat + data.length
          · obtain ⟨k, rfl⟩ := Nat.exists_eq_add_of_le hmem.1
            rw [Octets.octetAt_write_of_mem _ hrange (by omega),
              Octets.octetAt_write_of_mem _ hrange' (by omega)]
          · rw [Octets.octetAt_write_of_not_mem _ hrange hmem,
              Octets.octetAt_write_of_not_mem _ hrange' hmem]
            exact octets i hi
      · refine .inl ⟨.guest .fault, write_of_outside ?_, write_of_outside ?_⟩ <;> omega
  · refine .inl ⟨.guest .fault, ?_, ?_⟩ <;> exact if_neg hlength

/-- A memory is known if it is `SameOutside` two places that have no index in common. -/
theorem eq_of_apart {m m' k k' : Memory} (hm : SameOutside place m k) (hm' : SameOutside place m k')
    (ho : SameOutside other m' k) (ho' : SameOutside other m' k')
    (hapart : ∀ i, place i → ¬ other i) : k = k' := by
  cases hm with
  | detached =>
    cases hm'
    rfl
  | @attached before after size heapTop octets =>
    cases hm' with
    | @attached _ after' size' heapTop' octets' =>
      cases ho with
      | @attached before' _ _ _ octetsOther =>
        cases ho' with
        | attached _ _ octetsOther' =>
          have hoctets (i : Nat) : after.bytes.octetAt i = after'.bytes.octetAt i := by
            -- each index is outside one of the two places, and there both memories hold what a
            -- third does
            by_cases hi : place i
            · exact (octetsOther i (hapart i hi)).trans (octetsOther' i (hapart i hi)).symm
            · exact (octets i hi).trans (octets' i hi).symm
          have hbytes : after.bytes = after'.bytes := Octets.ext (size.trans size'.symm) hoctets
          cases after
          cases after'
          cases hbytes
          cases heapTop.trans heapTop'.symm
          rfl

end Memory.SameOutside

namespace Access

variable {α : Type} {place : Nat → Prop}

/-- On memories that differ only in the place, the access goes the same way and leaves memories that
differ only there. -/
abbrev Overlooks (place : Nat → Prop) (x : Access α) : Prop :=
  Respects (SameOutside place) x

/-! ## Reading

An access that reads overlooks a place if what it reads does not depend on it. -/

/-- `Access.reading` overlooks the place if the two memories always give the same result. -/
theorem overlooks_reading {f : Memory → Except CallError α}
    (hf : ∀ a b, SameOutside place a b → f a = f b) : Overlooks place (reading f) := by
  intro a b h
  unfold reading
  rw [hf a b h]
  cases f b with
  | ok a => exact .ok a h
  | error e => exact .error e h

/-- Whether a range lies inside does not depend on what is there. -/
theorem overlooks_check (address length : UInt32) : Overlooks place (check address length) := by
  refine overlooks_reading fun a b h => ?_
  cases h with
  | detached => rfl
  | attached size heapTop octets => simp only [Memory.check, size]

/-- `Access.readIoVecs` decodes a list from its array alone. Whether the array lies inside depends
on the size of the memory, and that is the same at both. -/
theorem overlooks_readIoVecs {buffers count : UInt32}
    (hapart : ∀ i, Spans buffers (count.toNat * IoVec.size.toNat) i → ¬ place i) :
    Overlooks place (readIoVecs buffers count) := by
  intro a b h
  unfold readIoVecs
  split
  · exact .ok [] h
  · split
    · next htotal =>
      have hlook : Overlooks place (reading Memory.size) := by
        refine overlooks_reading fun a b h => ?_
        cases h with
        | detached => rfl
        | attached size heapTop octets => simp only [Memory.size, LinearMemory.size, size]
      refine (hlook a b h).bind fun size t t' hread _ ht => ?_
      split
      · next hinside =>
        -- the size is a word, so the addresses of the array do not wrap around
        obtain ⟨linear, rfl, hsize, heq⟩ := exists_of_size (reading_eq_ok_iff.mp hread).1
        obtain rfl := (reading_eq_ok_iff.mp hread).2
        obtain ⟨after, rfl, hafter, -, -⟩ := ht.exists_linear
        have hproduct : (count * IoVec.size).toNat = count.toNat * IoVec.size.toNat := by
          rw [UInt32.toNat_mul]
          exact Nat.mod_eq_of_lt htotal
        rw [InRange, hproduct, heq] at hinside
        have hlist : linear.vectorsAt buffers.toNat count.toNat =
            after.vectorsAt buffers.toNat count.toNat := (ht.listAt_eq hapart).symm
        rw [readIoVecsFrom_eq hsize hinside, readIoVecsFrom_eq (hafter ▸ hsize) (hafter ▸ hinside),
          hlist]
        exact .ok _ ht
      · exact .error _ ht
    · exact .error _ h

/-! ## Writing

A write is refused or goes through by the size of the memory, whatever the octets are. What it
writes is the same at both memories, so it may even write in the place. -/

/-- A write looks at nothing. The two cases are those of `SameOutside.write_cases`. -/
theorem overlooks_write (address : UInt32) (data : Bytes) :
    Overlooks place (write address data) := by
  intro a b h
  unfold write updating
  dsimp only
  obtain ⟨e, ha, hb⟩ | ⟨a', b', ha, hb, h'⟩ := h.write_cases address data
  · rw [ha, hb]
    exact .error e h
  · rw [ha, hb]
    exact .ok () h'

/-- `Access.scatter` only writes, so even one that is refused half way looks at nothing. -/
theorem overlooks_scatter (vectors : List IoVec) (source : Bytes) :
    Overlooks place (scatter vectors source) :=
  (Respects.sequential _).scatterFrom overlooks_write 0 vectors source

end Access

end WasiHost
