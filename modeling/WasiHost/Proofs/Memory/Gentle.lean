import WasiHost.Proofs.Memory.Access

/-!
# Accesses fail fatally only for want of a memory

A pointer or a length that leads nowhere, or octets that are no text, make an access to guest memory
fail with an error number. The one way to fail fatally is to have no memory at all, and no access
takes the memory away. So whoever has a memory can do one access after the other and is always told
an error number if one fails.

* **`Gentle`** — a computation that fails fatally only for want of a memory. The property is
  `Gentle.sequential`, so it is proved of an access by its steps.
* **`Memory.FailsGently`** — the same of the operations on guest memory that accesses are made of.
* **`Access.gentle_readIoVecs`**, **`Access.gentle_writeStrings`**, **`Access.gentle_scatter`** —
  the accesses of several steps. -/

namespace WasiHost

variable {σ α β : Type}

/-- The computation fails fatally only for want of a memory, and it gives no memory away. -/
structure Gentle (part : σ → Memory) (x : EStateM CallError σ α) : Prop where
  fatal : ∀ s e s', x s = .error (.fatal e) s' → part s = .detached ∧ e = .noMemory
  detached : ∀ s a s', x s = .ok a s' → part s' = .detached → part s = .detached

section

variable {part : σ → Memory} {x : EStateM CallError σ α}

theorem gentle_pure (a : α) : Gentle part (pure a : EStateM CallError σ α) where
  fatal := nofun
  detached := by
    rintro s _ _ ⟨⟩ h
    exact h

theorem gentle_throw (errno : ErrNo) :
    Gentle part (throw (.guest errno) : EStateM CallError σ α) where
  fatal := nofun
  detached := nofun

/-- `Gentle` is handed on by a sequence. This is where `detached` is needed: a fatal failure of the
second step is blamed on the memory that the first step began with. -/
theorem Gentle.bind {f : α → EStateM CallError σ β} (hx : Gentle part x)
    (hf : ∀ a, Gentle part (f a)) : Gentle part (x >>= f) where
  fatal := by
    intro s e s' h
    rcases bind_eq_error_iff.mp h with h | ⟨a, t, ha, h⟩
    · exact hx.fatal s e s' h
    · -- what is missing at the second step was missing at the first
      obtain ⟨hdetached, he⟩ := (hf a).fatal t e s' h
      exact ⟨hx.detached s a t ha hdetached, he⟩
  detached := by
    intro s b s' h hdetached
    obtain ⟨a, t, ha, hb⟩ := bind_eq_ok_iff.mp h
    exact hx.detached s a t ha ((hf a).detached t b s' hb hdetached)

/-- What cannot fail and leaves guest memory as it is is `Gentle`. -/
theorem gentle_of_ok (h : ∀ s, ∃ a s', x s = .ok a s' ∧ part s' = part s) : Gentle part x where
  fatal := by
    intro s e s' hx
    obtain ⟨_, _, hok, _⟩ := h s
    rw [hok] at hx
    cases hx
  detached := by
    intro s a s' hx hdetached
    obtain ⟨_, _, hok, hpart⟩ := h s
    rw [hok] at hx
    cases hx
    rwa [hpart] at hdetached

end

/-- `Gentle` is handed on by sequences: what is missing at one step was missing at those before
it. -/
theorem Gentle.sequential (part : σ → Memory) : Sequential (Gentle part) where
  pure := gentle_pure
  refuse := gentle_throw
  bind hx hf := hx.bind hf

/-! ## Operations on guest memory

None of them is fatal on an attached memory: what is refused there is refused with an error number.
-/

namespace Memory

/-- An operation on guest memory fails fatally only if there is none. -/
def FailsGently (f : Memory → Except CallError α) : Prop :=
  ∀ memory e, f memory = .error (.fatal e) → memory = .detached ∧ e = .noMemory

/-- `Memory.slice` outside an attached memory is refused with an error number. -/
theorem failsGently_slice (address length : UInt32) :
    FailsGently fun memory => memory.slice address length := by
  intro memory e h
  cases memory with
  | detached =>
    cases h
    exact ⟨rfl, rfl⟩
  | attached linear =>
    simp only [slice, LinearMemory.slice] at h
    split at h <;> cases h

theorem failsGently_check (address length : UInt32) :
    FailsGently fun memory => memory.check address length := by
  intro memory e h
  cases memory with
  | detached =>
    cases h
    exact ⟨rfl, rfl⟩
  | attached linear =>
    simp only [check] at h
    split at h <;> cases h

/-- `Memory.write` is refused with an error number if its data are too long, even without a memory,
or if the range lies outside. -/
theorem failsGently_write (address : UInt32) (data : Bytes) :
    FailsGently fun memory => memory.write address data := by
  intro memory e h
  simp only [write] at h
  split at h
  · cases memory with
    | detached =>
      cases h
      exact ⟨rfl, rfl⟩
    | attached linear =>
      simp only at h
      split at h <;> cases h
  · cases h

theorem failsGently_overwrite (address length : UInt32) (octet : Nat → UInt8) :
    FailsGently fun memory => memory.overwrite address length octet := by
  intro memory e h
  cases memory with
  | detached =>
    cases h
    exact ⟨rfl, rfl⟩
  | attached linear =>
    simp only [overwrite] at h
    split at h <;> cases h

/-- `Memory.size` is refused with an error number if a word cannot say it. -/
theorem failsGently_size : FailsGently size := by
  intro memory e h
  cases memory with
  | detached =>
    cases h
    exact ⟨rfl, rfl⟩
  | attached linear =>
    simp only [size, LinearMemory.size] at h
    split at h <;> cases h

/-- `Memory.gather` fails as `Memory.slice` of one of the buffers does, by induction on the list of
buffers. -/
theorem failsGently_gather (vectors : List IoVec) :
    FailsGently fun memory => memory.gather vectors := by
  induction vectors with
  | nil => exact fun _ _ h => nomatch h
  | cons v rest ih =>
    intro memory e h
    simp only [gather] at h
    split at h
    · next error hslice =>
      cases h
      exact failsGently_slice v.buf v.len memory e hslice
    · split at h
      · next error hgather =>
        cases h
        exact ih memory e hgather
      · cases h

/-- Counting what `Memory.gather` has may fail as well, with an error number. -/
theorem failsGently_gatherText (vectors : List IoVec) :
    FailsGently fun memory => memory.gatherText vectors := by
  intro memory e h
  simp only [gatherText] at h
  split at h
  · next error hgather =>
    cases h
    exact failsGently_gather vectors memory e hgather
  · split at h <;> cases h

end Memory

namespace Access

open Memory

/-- Reading is `Gentle` if what it reads fails so: the memory stays the same. -/
theorem gentle_reading {f : Memory → Except CallError α} (h : FailsGently f) :
    Gentle id (reading f) where
  fatal := by
    intro memory e memory' hread
    unfold reading at hread
    split at hread
    · cases hread
    · next hf =>
      cases hread
      exact h memory e hf
  detached := by
    intro memory a memory' hread hdetached
    obtain ⟨_, rfl⟩ := reading_eq_ok_iff.mp hread
    exact hdetached

/-- Updating is `Gentle` if, in addition, the update never leaves a detached memory behind. -/
theorem gentle_updating {f : Memory → Except CallError Memory} (h : FailsGently f)
    (hattached : ∀ memory, f memory ≠ .ok .detached) : Gentle id (updating f) where
  fatal := by
    intro memory e memory' hupdate
    unfold updating at hupdate
    split at hupdate
    · cases hupdate
    · next hf =>
      cases hupdate
      exact h memory e hf
  detached := by
    rintro memory a _ hupdate rfl
    exact absurd (updating_eq_ok_iff.mp hupdate) (hattached memory)

/-- A write is `Gentle`: by `Memory.write_eq_ok_iff` it leaves an attached memory. -/
theorem gentle_write (address : UInt32) (data : Bytes) : Gentle id (write address data) := by
  refine gentle_updating (failsGently_write _ _) fun memory h => ?_
  obtain ⟨_, _, _, _, heq⟩ := Memory.write_eq_ok_iff.mp h
  cases heq

/-- Filling a range is `Gentle` for the same reason. -/
theorem gentle_overwrite (address length : UInt32) (octet : Nat → UInt8) :
    Gentle id (overwrite address length octet) := by
  refine gentle_updating (failsGently_overwrite _ _ _) fun memory h => ?_
  cases memory with
  | detached => cases h
  | attached linear =>
    simp only [Memory.overwrite] at h
    split at h <;> cases h

theorem gentle_slice (address length : UInt32) : Gentle id (slice address length) :=
  gentle_reading (failsGently_slice address length)

theorem gentle_check (address length : UInt32) : Gentle id (check address length) :=
  gentle_reading (failsGently_check address length)

/-! ## Accesses of several steps

By `Gentle.sequential` the steps decide, so each of these is the corresponding lemma of `Sequential`
with the single accesses put in. -/

/-- Reading text is `Gentle`: octets that are no text are refused with an error number. -/
theorem gentle_readText (address length : UInt32) : Gentle id (readText address length) :=
  (Gentle.sequential id).readText (gentle_slice _ _)

/-- Reading a list of buffers is `Gentle`, its comparison with the size of the memory included. -/
theorem gentle_readIoVecs (address count : UInt32) : Gentle id (readIoVecs address count) :=
  (Gentle.sequential id).readIoVecs (gentle_reading failsGently_size) gentle_slice address count

/-- Storing strings with their pointers is `Gentle`, also if a cursor leaves the range of a word. -/
theorem gentle_writeStrings (strings : List Bytes) (buffer pointers : UInt32) :
    Gentle id (writeStrings strings buffer pointers) :=
  (Gentle.sequential id).writeStrings gentle_write strings buffer pointers

/-- Scattering is `Gentle`, also if the count of octets leaves the range of a word. -/
theorem gentle_scatter (vectors : List IoVec) (source : Bytes) :
    Gentle id (scatter vectors source) :=
  (Gentle.sequential id).scatterFrom gentle_write 0 vectors source

end Access

end WasiHost
