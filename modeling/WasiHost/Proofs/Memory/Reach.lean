import WasiHost.Proofs.Memory.Scatter

/-!
# How far accesses reach

Whatever an access does to guest memory, it does inside some range: the memory keeps its size, and
an index outside the range holds what it held before. That is true however the access ends, so an
access that is refused half way has not strayed either.

* **`Memory.SameOutside`** — two memories agree outside a place.
* **`ReachesOnly`** — a computation leaves memory alone outside a place. It is closed under
  sequencing, so a body stays in its place if each of its steps does: `ReachesOnly.bind`.
* **`Access.reachesOnly_write`**, **`Access.reachesOnly_scatter`** — a write stays in its range, and
  a scatter in the parts of the buffers that its source fills.
-/

namespace WasiHost

/-- Whether an index is among the `length` indices from an address on. -/
def Spans (address : UInt32) (length i : Nat) : Prop :=
  address.toNat ≤ i ∧ i < address.toNat + length

namespace Memory

/-- The memory afterwards is as large as before and hands out the same addresses, and every index
outside the place holds what it held before. -/
inductive SameOutside (place : Nat → Prop) : Memory → Memory → Prop where
  | detached : SameOutside place .detached .detached
  | attached {before after : LinearMemory} (size : after.bytes.size = before.bytes.size)
      (heapTop : after.heapTop = before.heapTop)
      (octets : ∀ i, ¬ place i → after.bytes.octetAt i = before.bytes.octetAt i) :
      SameOutside place (.attached before) (.attached after)

namespace SameOutside

variable {place wider : Nat → Prop} {a b c : Memory}

theorem refl (place : Nat → Prop) (a : Memory) : SameOutside place a a := by
  cases a with
  | detached => exact .detached
  | attached linear => exact .attached rfl rfl fun _ _ => rfl

/-- `SameOutside` is transitive: two changes in one place are a change in that place. -/
theorem trans (hab : SameOutside place a b) (hbc : SameOutside place b c) :
    SameOutside place a c := by
  cases hab with
  | detached => exact hbc
  | attached size heapTop octets =>
    cases hbc with
    | attached size' heapTop' octets' =>
      exact .attached (size'.trans size) (heapTop'.trans heapTop) fun i hi =>
        (octets' i hi).trans (octets i hi)

/-- What happens in a place happens in any wider one, so `SameOutside` may be weakened. -/
theorem mono (h : SameOutside place a b) (hwider : ∀ i, place i → wider i) :
    SameOutside wider a b := by
  cases h with
  | detached => exact .detached
  | attached size heapTop octets =>
    exact .attached size heapTop fun i hi => octets i fun hplace => hi (hwider i hplace)

/-- What an attached memory becomes under `SameOutside` is attached. -/
theorem exists_linear {linear : LinearMemory} (h : SameOutside place (.attached linear) b) :
    ∃ after, b = .attached after ∧ after.bytes.size = linear.bytes.size ∧
      after.heapTop = linear.heapTop ∧
      ∀ i, ¬ place i → after.bytes.octetAt i = linear.bytes.octetAt i := by
  cases h with
  | attached size heapTop octets => exact ⟨_, rfl, size, heapTop, octets⟩

/-- Without a memory before there is none afterwards, as `SameOutside` makes none. -/
theorem eq_detached (h : SameOutside place .detached b) : b = .detached := by
  cases h
  rfl

/-- `Memory.slice` of a range apart from the place reads as before. -/
theorem slice_eq {before after : LinearMemory} {start length : Nat}
    (h : SameOutside place (.attached before) (.attached after))
    (hapart : ∀ i, start ≤ i → i < start + length → ¬ place i) :
    after.bytes.slice start length = before.bytes.slice start length := by
  cases h with
  | attached size heapTop octets =>
    exact Octets.slice_congr fun i hlo hhi => octets i (hapart i hlo hhi)

theorem readU32_eq {address : UInt32} (h : SameOutside place a b)
    (hapart : ∀ i, Spans address 4 i → ¬ place i) : b.readU32 address = a.readU32 address := by
  cases h with
  | detached => rfl
  | @attached before after size heapTop octets =>
    have hslice : after.bytes.slice address.toNat 4 = before.bytes.slice address.toNat 4 :=
      slice_eq (.attached size heapTop octets) fun i hlo hhi => hapart i ⟨hlo, hhi⟩
    have hfour : (4 : UInt32).toNat = 4 := rfl
    simp only [readU32, readWord, slice, LinearMemory.slice, size, hfour, hslice]

end SameOutside

/-- `Memory.write` changes nothing outside its range. -/
theorem sameOutside_write {memory memory' : Memory} {address : UInt32} {data : Bytes}
    (h : memory.write address data = .ok memory') :
    SameOutside (Spans address data.length) memory memory' := by
  obtain ⟨linear, rfl, _, hrange, rfl⟩ := write_eq_ok_iff.mp h
  exact .attached (LinearMemory.size_write _ _ _) rfl fun i hi =>
    Octets.octetAt_write_of_not_mem _ hrange hi

end Memory

open Memory

/-! ## Computations that stay in a place

The place is fixed while the computation goes on, so the property is handed on by sequencing. Where
it depends on what was read on the way, `Memory.sameOutside_bind` is used from one state on. -/

variable {ε σ α β : Type}

/-- The computation leaves memory alone outside the place, however it ends. -/
def ReachesOnly (place : Nat → Prop) (part : σ → Memory) (x : EStateM ε σ α) : Prop :=
  ∀ s, SameOutside place (part s) (part (endState (x s)))

section

variable {place wider : Nat → Prop} {part : σ → Memory} {x : EStateM ε σ α}

namespace ReachesOnly

theorem ok (h : ReachesOnly place part x) {s s' : σ} {a : α} (hx : x s = .ok a s') :
    SameOutside place (part s) (part s') := by
  have := h s
  rwa [hx] at this

/-- What it says of one that fails. It has not strayed either. -/
theorem error (h : ReachesOnly place part x) {s s' : σ} {e : ε} (hx : x s = .error e s') :
    SameOutside place (part s) (part s') := by
  have := h s
  rwa [hx] at this

/-- What stays in a place stays in any wider one. -/
theorem mono (h : ReachesOnly place part x) (hwider : ∀ i, place i → wider i) :
    ReachesOnly wider part x :=
  fun s => (h s).mono hwider

/-- What leaves memory alone altogether stays in any place: `Keeps` is the strongest
`ReachesOnly`. -/
theorem of_keeps (h : Keeps part x) : ReachesOnly place part x := by
  intro s
  rw [h s]
  exact .refl place _

end ReachesOnly

/-- From one state on: what comes next need only stay in the place if the first step has succeeded.
-/
theorem Memory.sameOutside_bind {f : α → EStateM ε σ β} {s : σ}
    (hx : SameOutside place (part s) (part (endState (x s))))
    (hf : ∀ a s', x s = .ok a s' → ReachesOnly place part (f a)) :
    SameOutside place (part s) (part (endState ((x >>= f) s))) := by
  cases h : x s with
  | ok a s' =>
    rw [h] at hx
    rw [bind_of_ok h]
    exact hx.trans (hf a s' h s')
  | error e s' =>
    rw [h] at hx
    rw [bind_of_error h]
    exact hx

namespace ReachesOnly

/-- For the second step it may be used that the first has succeeded, and with what. -/
theorem bind_of_ok {f : α → EStateM ε σ β} (hx : ReachesOnly place part x)
    (hf : ∀ s a s', x s = .ok a s' → ReachesOnly place part (f a)) :
    ReachesOnly place part (x >>= f) :=
  fun s => sameOutside_bind (hx s) (hf s)

theorem bind {f : α → EStateM ε σ β} (hx : ReachesOnly place part x)
    (hf : ∀ a, ReachesOnly place part (f a)) : ReachesOnly place part (x >>= f) :=
  hx.bind_of_ok fun _ a _ _ => hf a

end ReachesOnly

end

theorem reachesOnly_pure (place : Nat → Prop) (part : σ → Memory) (a : α) :
    ReachesOnly place part (pure a : EStateM ε σ α) :=
  .of_keeps (keeps_pure a)

theorem reachesOnly_throw (place : Nat → Prop) (part : σ → Memory) (e : ε) :
    ReachesOnly place part (throw e : EStateM ε σ α) :=
  .of_keeps (keeps_throw e)

/-- Whatever each step leaves alone, the sequence does: `ReachesOnly` of one place is handed on. -/
theorem ReachesOnly.sequential (place : Nat → Prop) (part : σ → Memory) :
    Sequential (fun {α : Type} (x : EStateM CallError σ α) => ReachesOnly place part x) where
  pure := reachesOnly_pure place part
  refuse _ := reachesOnly_throw place part _
  bind hx hf := hx.bind hf

/-! ## Accesses

A single write stays in its range. The accesses of several steps stay in all the ranges together;
for a scatter these are the parts of the buffers that the source fills. -/

/-- Whether an index is in a part of the buffers that a source of the given length fills. -/
def IoVec.Takes (vectors : List IoVec) (length i : Nat) : Prop :=
  ∃ v ∈ filled vectors length, v.Covers i

namespace Access

/-- A write stays in its range. If it is refused it has not been made, by `failsClean_write`. -/
theorem reachesOnly_write (address : UInt32) (data : Bytes) :
    ReachesOnly (Spans address data.length) id (write address data) := by
  intro memory
  cases h : write address data memory with
  | ok u memory' => exact sameOutside_write (write_eq_ok_iff.mp h)
  | error e memory' =>
    have hclean := failsClean_write address data memory e memory' h
    rw [endState, hclean]
    exact .refl _ _

theorem reachesOnly_writeU32 (address n : UInt32) :
    ReachesOnly (Spans address 4) id (writeU32 address n) := by
  have h := reachesOnly_write address (LittleEndian.encode 4 n.toNat)
  rwa [LittleEndian.length_encode] at h

theorem reachesOnly_writeU64 (address : UInt32) (n : UInt64) :
    ReachesOnly (Spans address 8) id (writeU64 address n) := by
  have h := reachesOnly_write address (LittleEndian.encode 8 n.toNat)
  rwa [LittleEndian.length_encode] at h

/-- `Access.overwrite` stays in the range that it fills. -/
theorem reachesOnly_overwrite (address length : UInt32) (octet : Nat → UInt8) :
    ReachesOnly (Spans address length.toNat) id (overwrite address length octet) := by
  intro memory
  cases memory with
  | detached => exact .detached
  | attached linear =>
    unfold overwrite updating Memory.overwrite
    by_cases h : InRange address length linear.bytes.size
    · simp only [if_pos h]
      have hlength : ((List.range length.toNat).map octet).length = length.toNat := by simp
      refine .attached (LinearMemory.size_write _ _ _) rfl fun i hi => ?_
      refine Octets.octetAt_write_of_not_mem _ ?_ ?_
      · rwa [hlength]
      · rwa [hlength]
    · simp only [if_neg h]
      exact .refl _ _

/-- `Access.scatterFrom` stays in the filled parts, also if it is refused on the way, by induction
on the buffers. -/
theorem reachesOnly_scatterFrom (copied : UInt32) (vectors : List IoVec) (source : Bytes) :
    ReachesOnly (IoVec.Takes vectors source.length) id (scatterFrom copied vectors source) := by
  -- the first buffer takes its chunk, and what the rest takes is filled in the whole list, too
  induction vectors generalizing copied source with
  | nil => exact reachesOnly_pure _ _ _
  | cons v rest ih =>
    rw [scatterFrom]
    split
    · exact reachesOnly_pure _ _ _
    · next hsource =>
      have hlength : source.length ≠ 0 := by simpa using hsource
      have hfilled : IoVec.filled (v :: rest) source.length =
          { v with len := UInt32.ofNat (min v.len.toNat source.length) } ::
            IoVec.filled rest (source.length - v.len.toNat) := by
        rw [IoVec.filled, if_neg hlength]
      -- the first buffer takes a chunk of the source
      have hchunk : ∀ i, Spans v.buf (source.take v.len.toNat).length i →
          IoVec.Takes (v :: rest) source.length i := by
        intro i hi
        refine ⟨_, by rw [hfilled]; exact List.mem_cons_self, ?_⟩
        rw [LinearMemory.length_chunk] at hi
        simpa only [Spans, IoVec.Covers, IoVec.toNat_len_filled] using hi
      refine ((reachesOnly_write _ _).mono hchunk).bind fun _ => ?_
      cases LinearMemory.addWords? copied (UInt32.ofNat (source.take v.len.toNat).length) with
      | none => exact reachesOnly_throw _ _ _
      | some copied' =>
        -- and the other buffers the rest of it
        refine (ih copied' (source.drop v.len.toNat)).mono ?_
        rintro i ⟨w, hw, hi⟩
        rw [List.length_drop] at hw
        exact ⟨w, by rw [hfilled]; exact List.mem_cons_of_mem _ hw, hi⟩

/-- `Access.scatter` stays in the parts of the buffers that its source fills: `IoVec.Takes`. -/
theorem reachesOnly_scatter (vectors : List IoVec) (source : Bytes) :
    ReachesOnly (IoVec.Takes vectors source.length) id (scatter vectors source) :=
  reachesOnly_scatterFrom 0 vectors source

end Access

end WasiHost
