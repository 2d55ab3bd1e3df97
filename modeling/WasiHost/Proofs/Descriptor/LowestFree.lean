import Mathlib.Order.Bounds.Defs
import WasiHost.Proofs.Descriptor.Ledger

/-!
# When the number handed out is the lowest free one

The numbers that no descriptor has are those on the stack of the ledger and those that were never
handed out, and all on the stack lie below all the others. A descriptor is kept under the number on
top of the stack, whatever lies under it, so how the stack was piled up decides whether that is the
lowest of them.

* **`vacant`** — the numbers under which no descriptor is open.
* **`Tells.mem_vacant_iff`** — where the vacant numbers stand in the ledger.
* **`LowestOnTop`** — nothing on the stack is less than its top.
* **`isLeast_insert_iff`** — the lowest vacant number is handed out exactly if it is on top.
-/

namespace WasiHost

/-- The numbers under which no descriptor is open. -/
def DescriptorTable.vacant (table : DescriptorTable) : Set Fd :=
  {fd | ∀ d, table.get fd ≠ .ok d}

namespace Ledger

/-- The number to be handed out next is the lowest of those that were given back. If there is none
of them it is the next word, which there has to be. -/
def LowestOnTop (ledger : Ledger) : Prop :=
  match ledger.released with
  | top :: rest => ∀ fd ∈ rest, top ≤ fd
  | [] => ledger.used < UInt32.size

/-- The numbers in `ledger.order` are those in `released`, and then all from `used` on. -/
theorem exists_order_iff (ledger : Ledger) (key : Nat) :
    (∃ i, ledger.order i = key) ↔
      (∃ fd ∈ ledger.released, fd.toNat = key) ∨ ledger.used ≤ key := by
  obtain ⟨entries, released, used⟩ := ledger
  induction released with
  | nil =>
    -- with nothing on the stack the numbers to come count upwards
    have hup : (∃ i, used + i = key) ↔ used ≤ key :=
      ⟨fun ⟨i, hi⟩ => by omega, fun hle => ⟨key - used, by omega⟩⟩
    simpa [order] using hup
  | cons top rest ih =>
    simp only [order, List.map_cons, List.foldr_cons] at ih ⊢
    rw [List.exists_mem_cons_iff, or_assoc, ← ih]
    constructor
    · rintro ⟨i, hi⟩
      cases i with
      | zero => exact .inl hi
      | succ i => exact .inr ⟨i, hi⟩
    · rintro (htop | ⟨i, hi⟩)
      · exact ⟨0, htop⟩
      · exact ⟨i + 1, hi⟩

namespace Tells

variable {ledger : Ledger} {table table' : DescriptorTable} {fd : Fd}

/-- A number is `vacant` if it was `released`, or was never handed out. -/
theorem mem_vacant_iff (h : ledger.Tells table) :
    fd ∈ table.vacant ↔ fd ∈ ledger.released ∨ ledger.used ≤ fd.toNat := by
  have hslot : fd ∈ table.vacant ↔ table.arena.get? fd.toNat = none := by
    simp only [DescriptorTable.vacant, Set.mem_ofPred_eq, ne_eq, DescriptorTable.get_eq_ok_iff,
      Option.eq_none_iff_forall_ne_some]
  have horder : table.arena.get? fd.toNat = none ↔ ∃ i, ledger.order i = fd.toNat := by
    refine ⟨h.offers.complete _, ?_⟩
    rintro ⟨i, hi⟩
    rw [← hi]
    exact h.offers.get?_order i
  rw [hslot, horder, ledger.exists_order_iff]
  simp only [UInt32.toNat_inj, exists_eq_right]

/-- `insert` keeps a descriptor under `order 0`, and succeeds exactly if that is a word. -/
theorem insert_eq_ok_iff (h : ledger.Tells table) {d : Descriptor} :
    (∃ table', table.insert d = .ok (fd, table')) ↔ ledger.order 0 = fd.toNat := by
  rw [h.offers.head]
  constructor
  · rintro ⟨table', hins⟩
    exact (DescriptorTable.toNat_of_insert hins).symm
  · intro hnext
    refine ⟨_, DescriptorTable.insert_eq_ok_iff.mpr ⟨hnext ▸ fd.toNat_lt, ?_, rfl⟩⟩
    rw [hnext, UInt32.ofNat_toNat]

/-- The top of the stack is the least `vacant` number exactly if nothing on the stack is less: all
others are from `used` on, beyond everything on the stack. -/
theorem isLeast_top_iff (h : ledger.Tells table) {top : Fd} {rest : List Fd}
    (hreleased : ledger.released = top :: rest) :
    IsLeast table.vacant top ↔ ∀ fd ∈ rest, top ≤ fd := by
  have hvacant {fd : Fd} :
      fd ∈ table.vacant ↔ (fd = top ∨ fd ∈ rest) ∨ ledger.used ≤ fd.toNat := by
    rw [h.mem_vacant_iff, hreleased, List.mem_cons]
  constructor
  · rintro ⟨-, hleast⟩ fd hfd
    exact hleast (hvacant.mpr (.inl (.inr hfd)))
  · intro hrest
    refine ⟨hvacant.mpr (.inl (.inl rfl)), fun fd hfd => ?_⟩
    -- it is the top itself, lies under it, or was never handed out, while the top was
    rcases hvacant.mp hfd with (rfl | hmem) | hused
    · exact UInt32.le_refl _
    · exact hrest fd hmem
    · have hbelow : top.toNat < ledger.used := h.below top (hreleased ▸ List.mem_cons_self)
      exact UInt32.le_iff_toNat_le.mpr (by omega)

end Tells

end Ledger

namespace DescriptorTable

/-- However a table was used, the next `insert` gets the least `vacant` number exactly if
`LowestOnTop`: of the numbers given back and not handed out since, the one given back last is the
least. -/
theorem isLeast_insert_iff (acts : List TableAct) (d : Descriptor) :
    (∃ fd table', (initial.run acts).insert d = .ok (fd, table') ∧
        IsLeast (initial.run acts).vacant fd) ↔
      (Ledger.initial.run acts).LowestOnTop := by
  have h := Ledger.tells_initial.run acts
  generalize Ledger.initial.run acts = ledger at h ⊢
  generalize initial.run acts = table at h ⊢
  have hins : (∃ fd table', table.insert d = .ok (fd, table') ∧ IsLeast table.vacant fd) ↔
      ∃ fd, ledger.order 0 = fd.toNat ∧ IsLeast table.vacant fd := by
    simp only [exists_and_right, h.insert_eq_ok_iff]
  rw [hins, Ledger.LowestOnTop, Ledger.order]
  -- with a stack, its top is handed out; without, the next word
  cases hreleased : ledger.released with
  | cons top rest =>
    simp only [List.map_cons, List.foldr_cons, Arena.before, UInt32.toNat_inj,
      exists_eq_left', h.isLeast_top_iff hreleased]
  | nil =>
    -- all vacant numbers are from `used` on, and `used` is one of them if it is a word
    have hvacant {fd : Fd} : fd ∈ table.vacant ↔ ledger.used ≤ fd.toNat := by
      simp [h.mem_vacant_iff, hreleased]
    simp only [List.map_nil, List.foldr_nil, Nat.add_zero]
    constructor
    · rintro ⟨fd, hfd, -⟩
      exact hfd ▸ fd.toNat_lt
    · intro hword
      refine ⟨UInt32.ofNat ledger.used, (UInt32.toNat_ofNat_of_lt' hword).symm, ?_, ?_⟩
      · exact hvacant.mpr (UInt32.toNat_ofNat_of_lt' hword).ge
      · intro fd hfd
        rw [UInt32.le_iff_toNat_le, UInt32.toNat_ofNat_of_lt' hword]
        exact hvacant.mp hfd

/-- Of two numbers that are given back in ascending order `insert` hands out the higher one
first. -/
theorem not_isLeast_insert :
    let file : Descriptor := .file "/f" 0 none default
    let table := initial.run [.keep file, .keep file, .close 4, .close 5]
    table.arena.slots.size < UInt32.size ∧
      ¬ ∃ fd table', table.insert file = .ok (fd, table') ∧ IsLeast table.vacant fd := by
  intro file table
  refine ⟨by decide, ?_⟩
  rintro ⟨fd, table', hins, -, hleast⟩
  have hfd : fd.toNat = 5 := toNat_of_insert hins
  have hclosed : table.get 4 = .error .badF := by decide
  have hfour : (4 : Fd) ∈ table.vacant := by
    intro d
    rw [hclosed]
    exact nofun
  have hle : fd.toNat ≤ 4 := UInt32.le_iff_toNat_le.mp (hleast hfour)
  omega

end DescriptorTable

end WasiHost
