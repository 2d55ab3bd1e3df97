import WasiHost.Descriptor.Table
import WasiHost.Proofs.Descriptor.Arena
import WasiHost.Proofs.FileSystem.CanonicalPath

/-!
# Sound descriptor tables

A table as a session leaves it: the first four numbers are the standard streams and the root
directory, any other number in use is an opened file or directory under a canonical path, and a file
is never read beyond what was loaded of it. Numbers not in use come up in a definite order.

* **`get_insert`**, **`get_set`**, **`get_close`** — what is open after each operation.
* **`Sound`** — the invariant, which each operation keeps: `Sound.insert`, `Sound.set`,
  `Sound.close`.
* **`Sound.size_eq`** — the table counts the reserved descriptors and the opened ones.
-/

namespace WasiHost

namespace Descriptor

/-- A descriptor as opening a path makes it and reading leaves it: an absolute canonical path, and
for a file an offset that lies inside what was loaded. -/
inductive Opened : Descriptor → Prop where
  | file (path : String) (offset : UInt64) (content : Option Bytes) (status : FdStat)
      (canonical : Path.Canonical path)
      (unread : content = none → offset = 0)
      (inside : ∀ bytes, content = some bytes → offset.toNat ≤ bytes.length) :
      Opened (.file path offset content status)
  | directory (path : String) (status : FdStat) (canonical : Path.Canonical path) :
      Opened (.directory path status)

/-- `withFlags` keeps a descriptor `Opened`: flags are no part of it. -/
theorem Opened.withFlags {d : Descriptor} (h : d.Opened) (flags : UInt16) :
    (d.withFlags flags).Opened := by
  cases h with
  | file path offset content status canonical unread inside =>
    exact .file path offset content _ canonical unread inside
  | directory path status canonical => exact .directory path _ canonical

end Descriptor

namespace DescriptorTable

variable {table table' : DescriptorTable} {fd : Fd} {d : Descriptor}

/-! ## What is open after each operation

Each operation is one of the arena's, with numbers that are words. Its lemma says what `get` finds
under every number afterwards, and that is how the invariant is proved to be kept. -/

/-- `get` answers `.ok d` exactly if the arena has `d` in use under `fd`. -/
theorem get_eq_ok_iff : table.get fd = .ok d ↔ table.arena.get? fd.toNat = some d := by
  rw [get]
  cases table.arena.get? fd.toNat <;> simp

/-- `toListBelow` lists what `get` answers, under each number below the limit. -/
theorem mem_toListBelow_iff {limit n : Nat} :
    (n, d) ∈ table.toListBelow limit ↔ n < limit ∧ table.arena.get? n = some d := by
  -- a number beyond the slots is not in use, so the limit may as well be smaller
  have hslots : table.arena.get? n = some d → n < table.arena.slots.size := by
    intro h
    by_contra hbeyond
    rw [Arena.get?, Array.getElem?_eq_none (Nat.le_of_not_lt hbeyond)] at h
    cases h
  simp only [toListBelow, List.mem_filterMap, List.mem_range, Option.map_eq_some_iff,
    Prod.mk.injEq]
  constructor
  · rintro ⟨_, hlt, _, hget, rfl, rfl⟩
    exact ⟨Nat.lt_of_lt_of_le hlt (Nat.min_le_left _ _), hget⟩
  · rintro ⟨hlt, hget⟩
    exact ⟨n, Nat.lt_min.mpr ⟨hlt, hslots hget⟩, d, hget, rfl, rfl⟩

theorem get_congr (h : table'.arena.get? fd.toNat = table.arena.get? fd.toNat) :
    table'.get fd = table.get fd := by
  rw [get, h, get]

/-- `set` is found by `get` under a number where something is open, and changes no other answer.
Where nothing is open it puts nothing. -/
theorem get_set (table : DescriptorTable) (fd : Fd) (d : Descriptor) (fd' : Fd) :
    (table.set fd d).get fd' =
      if fd' = fd ∧ (table.arena.get? fd.toNat).isSome then .ok d else table.get fd' := by
  simp only [get, set, Arena.get?_set, UInt32.toNat_inj]
  by_cases h : fd' = fd ∧ (table.arena.get? fd.toNat).isSome
  · simp only [if_pos h]
  · simp only [if_neg h]

theorem get_set_self {old : Descriptor} (h : table.get fd = .ok old) :
    (table.set fd d).get fd = .ok d := by
  rw [get_set, if_pos ⟨rfl, by rw [get_eq_ok_iff.mp h]; rfl⟩]

/-- Under any other number, what is found stays: `get_set`. -/
theorem get_set_of_ne {fd' : Fd} (h : fd' ≠ fd) : (table.set fd d).get fd' = table.get fd' := by
  rw [get_set, if_neg fun h' => h h'.1]

theorem set_set (table : DescriptorTable) (fd : Fd) (d d' : Descriptor) :
    (table.set fd d).set fd d' = table.set fd d' := by
  simp only [set, Arena.set_set]

theorem set_of_get (h : table.get fd = .ok d) : table.set fd d = table := by
  simp only [set, Arena.set_of_get? (get_eq_ok_iff.mp h)]

theorem set_of_get_error {errno : ErrNo} (h : table.get fd = .error errno) (d : Descriptor) :
    table.set fd d = table := by
  have hnone : table.arena.get? fd.toNat = none := by
    rw [get] at h
    cases hfound : table.arena.get? fd.toNat with
    | none => rfl
    | some old =>
      rw [hfound] at h
      cases h
  simp only [set, Arena.set, hnone]

/-- Two `set` under different numbers may be made in either order. -/
theorem set_comm (table : DescriptorTable) {fd fd' : Fd} (h : fd ≠ fd') (d d' : Descriptor) :
    (table.set fd d).set fd' d' = (table.set fd' d').set fd d := by
  have hkeys : fd.toNat ≠ fd'.toNat := fun heq => h (UInt32.toNat_inj.mp heq)
  simp only [set, Arena.set_comm _ hkeys]

/-- `insert` keeps a descriptor exactly if `arena.next` is a word, and gives it that number. -/
theorem insert_eq_ok_iff :
    table.insert d = .ok (fd, table') ↔
      table.arena.next < UInt32.size ∧ fd = UInt32.ofNat table.arena.next ∧
        table' = { arena := table.arena.insert d } := by
  rw [insert, Fd.ofIndex]
  by_cases h : table.arena.next < UInt32.size
  · rw [if_pos h]
    constructor
    · intro heq
      cases heq
      exact ⟨h, rfl, rfl⟩
    · rintro ⟨_, rfl, rfl⟩
      rfl
  · rw [if_neg h]
    constructor
    · intro heq
      cases heq
    · rintro ⟨hlt, _⟩
      exact absurd hlt h

theorem toNat_of_insert (h : table.insert d = .ok (fd, table')) :
    fd.toNat = table.arena.next := by
  obtain ⟨hlt, rfl, _⟩ := insert_eq_ok_iff.mp h
  rw [UInt32.toNat_ofNat']
  exact Nat.mod_eq_of_lt hlt

/-- `close` succeeds exactly for what is open. A reserved descriptor stays, any other one is erased
from the arena, and a record of the log says so. -/
theorem close_eq_ok_iff {records : List LogRecord} :
    table.close fd = .ok (table', records) ↔
      ∃ old, table.get fd = .ok old ∧
        (Fd.isReserved fd = true ∧ table' = table ∧ records = [] ∨
          Fd.isReserved fd = false ∧ table' = { arena := table.arena.erase fd.toNat } ∧
            records = [released fd]) := by
  rw [close]
  cases hget : table.get fd with
  | error errno => simp
  | ok old =>
    cases hres : Fd.isReserved fd <;> simp [eq_comm]

/-- `close` of a number that is not reserved erases it, whatever is open under it. -/
theorem close_of_get {old : Descriptor} (hget : table.get fd = .ok old)
    (hfree : Fd.isReserved fd = false) :
    table.close fd = .ok ({ arena := table.arena.erase fd.toNat }, [released fd]) :=
  close_eq_ok_iff.mpr ⟨old, hget, .inr ⟨hfree, rfl, rfl⟩⟩

/-- `close` forgets what was `set`. -/
theorem close_set {old : Descriptor} (hget : table.get fd = .ok old)
    (hfree : Fd.isReserved fd = false) (d : Descriptor) :
    (table.set fd d).close fd = table.close fd := by
  rw [close_of_get (get_set_self hget) hfree, close_of_get hget hfree]
  simp only [set, Arena.erase_set]

/-- The reserved numbers are those below `Fd.firstFree`. -/
theorem isReserved_eq_false_iff : Fd.isReserved fd = false ↔ Fd.firstFree ≤ fd := by
  simp [Fd.isReserved, UInt32.not_lt]

/-! ## The invariant

`Sound` says of the numbers one by one what may be open under them, and of the arena that its chain
and its count are in order. `Sound.of_get` reduces an operation to what it changes of `get`. -/

/-- A table as a session leaves it. -/
structure Sound (table : DescriptorTable) : Prop where
  stdin : table.get Fd.stdin = .ok .stdin
  stdout : table.get Fd.stdout = .ok .stdout
  stderr : table.get Fd.stderr = .ok .stderr
  root : table.get Fd.root = .ok (.preopened Path.root)
  opened : ∀ fd d, Fd.firstFree ≤ fd → table.get fd = .ok d → d.Opened
  /-- Numbers not in use come up in some order. -/
  offers : ∃ order, table.arena.Offers order
  holds : ∃ keys, table.arena.Holds keys
  /-- Numbers in use are words. -/
  word : ∀ key, (table.arena.get? key).isSome → key < UInt32.size

/-- Below `Fd.firstFree` stand the four reserved descriptors and nothing else. -/
theorem Sound.reserved_cases (h : table.Sound) (hfd : ¬ Fd.firstFree ≤ fd) :
    fd = Fd.stdin ∧ table.get fd = .ok .stdin ∨ fd = Fd.stdout ∧ table.get fd = .ok .stdout ∨
      fd = Fd.stderr ∧ table.get fd = .ok .stderr ∨
      fd = Fd.root ∧ table.get fd = .ok (.preopened Path.root) := by
  have hlt : fd.toNat < 4 := by
    rw [UInt32.not_le, UInt32.lt_iff_toNat_lt] at hfd
    exact hfd
  have hcases : fd.toNat = 0 ∨ fd.toNat = 1 ∨ fd.toNat = 2 ∨ fd.toNat = 3 := by omega
  rcases hcases with h0 | h1 | h2 | h3
  · have heq : fd = Fd.stdin := UInt32.toNat_inj.mp h0
    exact .inl ⟨heq, heq ▸ h.stdin⟩
  · have heq : fd = Fd.stdout := UInt32.toNat_inj.mp h1
    exact .inr (.inl ⟨heq, heq ▸ h.stdout⟩)
  · have heq : fd = Fd.stderr := UInt32.toNat_inj.mp h2
    exact .inr (.inr (.inl ⟨heq, heq ▸ h.stderr⟩))
  · have heq : fd = Fd.root := UInt32.toNat_inj.mp h3
    exact .inr (.inr (.inr ⟨heq, heq ▸ h.root⟩))

/-- What `get` finds is `Opened` and from `Fd.firstFree` on, or one of the four reserved
descriptors. -/
theorem Sound.cases_of_get (h : table.Sound) (hget : table.get fd = .ok d) :
    Fd.firstFree ≤ fd ∧ d.Opened ∨ fd = Fd.stdin ∧ d = .stdin ∨ fd = Fd.stdout ∧ d = .stdout ∨
      fd = Fd.stderr ∧ d = .stderr ∨ fd = Fd.root ∧ d = .preopened Path.root := by
  by_cases hfree : Fd.firstFree ≤ fd
  · exact .inl ⟨hfree, h.opened fd d hfree hget⟩
  · refine .inr ?_
    rcases h.reserved_cases hfree with ⟨heq, hd⟩ | ⟨heq, hd⟩ | ⟨heq, hd⟩ | ⟨heq, hd⟩
    all_goals cases hget.symm.trans hd
    · exact .inl ⟨heq, rfl⟩
    · exact .inr (.inl ⟨heq, rfl⟩)
    · exact .inr (.inr (.inl ⟨heq, rfl⟩))
    · exact .inr (.inr (.inr ⟨heq, rfl⟩))

/-- Only `Fd.stdin` is open as `.stdin`: nothing that is `Opened` is. -/
theorem Sound.eq_stdin (h : table.Sound) (hget : table.get fd = .ok .stdin) : fd = Fd.stdin := by
  rcases h.cases_of_get hget with ⟨_, hd⟩ | ⟨heq, _⟩ | ⟨_, hd⟩ | ⟨_, hd⟩ | ⟨_, hd⟩
  · cases hd
  · exact heq
  all_goals cases hd

/-- Only `Fd.root` is open as `.preopened`. -/
theorem Sound.eq_root (h : table.Sound) {name : String}
    (hget : table.get fd = .ok (.preopened name)) :
    fd = Fd.root := by
  rcases h.cases_of_get hget with ⟨_, hd⟩ | ⟨_, hd⟩ | ⟨_, hd⟩ | ⟨_, hd⟩ | ⟨heq, _⟩
  · cases hd
  · cases hd
  · cases hd
  · cases hd
  · exact heq

/-- A `.file` stands from `Fd.firstFree` on, and is `Opened`. -/
theorem Sound.opened_of_file (h : table.Sound) {path : String} {offset : UInt64}
    {content : Option Bytes} {status : FdStat}
    (hget : table.get fd = .ok (.file path offset content status)) :
    Fd.firstFree ≤ fd ∧ (Descriptor.file path offset content status).Opened := by
  -- the reserved descriptors are no files
  rcases h.cases_of_get hget with hopened | ⟨_, hd⟩ | ⟨_, hd⟩ | ⟨_, hd⟩ | ⟨_, hd⟩
  · exact hopened
  all_goals cases hd

/-- The number that `insert` hands out depends on the table only, not on what is kept. -/
theorem fd_eq_of_insert {fd' : Fd} {d' : Descriptor} {table'' : DescriptorTable}
    (h : table.insert d = .ok (fd, table')) (h' : table.insert d' = .ok (fd', table'')) :
    fd = fd' := by
  rw [← UInt32.toNat_inj, toNat_of_insert h, toNat_of_insert h']

/-- The number that `insert` hands out was not in use. -/
theorem get_of_insert {order : Nat → Nat} (horder : table.arena.Offers order)
    (hins : table.insert d = .ok (fd, table')) : table.arena.get? fd.toNat = none := by
  rw [toNat_of_insert hins, ← horder.head]
  exact horder.get?_order 0

/-- After `insert` the descriptor is found under its number, and every other `get` is as before. -/
theorem get_insert {order : Nat → Nat} (horder : table.arena.Offers order)
    (hins : table.insert d = .ok (fd, table')) (fd' : Fd) :
    table'.get fd' = if fd' = fd then .ok d else table.get fd' := by
  obtain ⟨_, _, rfl⟩ := insert_eq_ok_iff.mp hins
  simp only [get, horder.get?_insert, horder.head, ← toNat_of_insert hins, UInt32.toNat_inj]
  by_cases heq : fd' = fd
  · simp only [if_pos heq]
  · simp only [if_neg heq]

/-- `DescriptorTable.get_of_insert` for a sound table, which has some order. -/
theorem Sound.get_of_insert (h : table.Sound) (hins : table.insert d = .ok (fd, table')) :
    table.arena.get? fd.toNat = none := by
  obtain ⟨order, horder⟩ := h.offers
  exact DescriptorTable.get_of_insert horder hins

theorem Sound.get_insert (h : table.Sound) (hins : table.insert d = .ok (fd, table')) (fd' : Fd) :
    table'.get fd' = if fd' = fd then .ok d else table.get fd' := by
  obtain ⟨order, horder⟩ := h.offers
  exact DescriptorTable.get_insert horder hins fd'

/-- `insert` never hands out a reserved number: those are in use. -/
theorem Sound.firstFree_le_of_insert (h : table.Sound)
    (hins : table.insert d = .ok (fd, table')) : Fd.firstFree ≤ fd := by
  have hnone := h.get_of_insert hins
  by_contra hfree
  rcases h.reserved_cases hfree with ⟨_, h'⟩ | ⟨_, h'⟩ | ⟨_, h'⟩ | ⟨_, h'⟩
  all_goals
    rw [get_eq_ok_iff, hnone] at h'
    cases h'

/-- A table that answers `get` alike at every reserved number, and has `Opened` descriptors above,
is `Sound` if its arena still offers an order and holds a set of words. -/
theorem Sound.of_get (h : table.Sound)
    (hreserved : ∀ fd, ¬ Fd.firstFree ≤ fd → table'.get fd = table.get fd)
    (hopened : ∀ fd d, Fd.firstFree ≤ fd → table'.get fd = .ok d → d.Opened)
    (hoffers : ∃ order, table'.arena.Offers order) (hholds : ∃ keys, table'.arena.Holds keys)
    (hword : ∀ key, (table'.arena.get? key).isSome → key < UInt32.size) : table'.Sound where
  stdin := (hreserved _ (by decide)).trans h.stdin
  stdout := (hreserved _ (by decide)).trans h.stdout
  stderr := (hreserved _ (by decide)).trans h.stderr
  root := (hreserved _ (by decide)).trans h.root
  opened := hopened
  offers := hoffers
  holds := hholds
  word := hword

/-- `insert` of an `Opened` descriptor keeps a table `Sound`. The number is one that was not in use,
hence not reserved. -/
theorem Sound.insert (h : table.Sound) (hd : d.Opened)
    (hins : table.insert d = .ok (fd, table')) : table'.Sound := by
  have hfree := h.firstFree_le_of_insert hins
  have hget := h.get_insert hins
  have hnext := toNat_of_insert hins
  obtain ⟨order, horder⟩ := h.offers
  obtain ⟨keys, hkeys⟩ := h.holds
  obtain ⟨hlt, _, rfl⟩ := insert_eq_ok_iff.mp hins
  refine h.of_get ?_ ?_ ⟨_, horder.insert d⟩ ⟨_, hkeys.insert horder d⟩ ?_
  · -- the new number is not a reserved one
    intro fd' hfd'
    rw [hget, if_neg fun heq : fd' = fd => hfd' (heq ▸ hfree)]
  · intro fd' d' hfd' hd'
    rw [hget] at hd'
    split at hd'
    · cases hd'
      exact hd
    · exact h.opened fd' d' hfd' hd'
  · -- the new number is a word, or there would have been no descriptor under it
    intro key hkey
    rw [horder.get?_insert] at hkey
    split at hkey
    · next heq => rwa [heq, horder.head]
    · exact h.word key hkey

/-- `set` of an `Opened` descriptor above the reserved ones keeps a table `Sound`. -/
theorem Sound.set (h : table.Sound) (hfree : Fd.firstFree ≤ fd) (hd : d.Opened) :
    (table.set fd d).Sound := by
  obtain ⟨order, horder⟩ := h.offers
  obtain ⟨keys, hkeys⟩ := h.holds
  refine h.of_get ?_ ?_ ⟨_, horder.set fd.toNat d⟩ ⟨_, hkeys.set fd.toNat d⟩ ?_
  · intro fd' hfd'
    exact get_set_of_ne fun heq => hfd' (heq ▸ hfree)
  · intro fd' d' hfd' hd'
    rw [get_set] at hd'
    split at hd'
    · cases hd'
      exact hd
    · exact h.opened fd' d' hfd' hd'
  · intro key hkey
    exact h.word key (by rwa [← Arena.isSome_get?_set table.arena fd.toNat d])

/-- What is open after `close` of a number that is not reserved. -/
theorem get_close {old : Descriptor} (hget : table.get fd = .ok old) (fd' : Fd) :
    ({ arena := table.arena.erase fd.toNat } : DescriptorTable).get fd' =
      if fd' = fd then .error .badF else table.get fd' := by
  simp only [get, Arena.get?_erase (get_eq_ok_iff.mp hget), UInt32.toNat_inj]
  by_cases heq : fd' = fd
  · simp only [if_pos heq]
  · simp only [if_neg heq]

/-- `close` keeps a table `Sound`: it never gives a reserved descriptor back. -/
theorem Sound.close (h : table.Sound) {records : List LogRecord}
    (hclose : table.close fd = .ok (table', records)) : table'.Sound := by
  obtain ⟨old, hold, ⟨_, rfl, _⟩ | ⟨hfree, rfl, _⟩⟩ := close_eq_ok_iff.mp hclose
  · exact h
  · rw [isReserved_eq_false_iff] at hfree
    have hget := get_close hold
    have hslot := get_eq_ok_iff.mp hold
    obtain ⟨order, horder⟩ := h.offers
    obtain ⟨keys, hkeys⟩ := h.holds
    refine h.of_get ?_ ?_ ⟨_, horder.erase hslot⟩ ⟨_, hkeys.erase hslot⟩ ?_
    · -- reserved numbers are not given back
      intro fd' hfd'
      rw [hget, if_neg fun heq : fd' = fd => hfd' (heq ▸ hfree)]
    · intro fd' d' hfd' hd'
      rw [hget] at hd'
      split at hd'
      · cases hd'
      · exact h.opened fd' d' hfd' hd'
    · intro key hkey
      rw [Arena.get?_erase hslot] at hkey
      split at hkey
      · cases hkey
      · exact h.word key hkey

/-- `size` counts the four reserved descriptors and those from `Fd.firstFree` on. -/
theorem Sound.size_eq (h : table.Sound) :
    ∃ others : Finset Fd,
      (∀ fd, fd ∈ others ↔ Fd.firstFree ≤ fd ∧ ∃ d, table.get fd = .ok d) ∧
        table.size = 4 + others.card := by
  obtain ⟨keys, hkeys⟩ := h.holds
  -- the keys are those below four and the rest, and the rest are words, each under its own number
  have hword : ∀ key ∈ keys, (UInt32.ofNat key).toNat = key := by
    intro key hkey
    rw [UInt32.toNat_ofNat']
    exact Nat.mod_eq_of_lt (h.word key ((hkeys.mem_iff key).mp hkey))
  have hreserved : keys.filter (¬ 4 ≤ ·) = Finset.range 4 := by
    ext key
    rw [Finset.mem_filter, Finset.mem_range, Nat.not_le, hkeys.mem_iff, and_iff_right_iff_imp]
    intro hlt
    obtain rfl | rfl | rfl | rfl : key = 0 ∨ key = 1 ∨ key = 2 ∨ key = 3 := by omega
    · exact Option.isSome_of_eq_some (get_eq_ok_iff.mp h.stdin)
    · exact Option.isSome_of_eq_some (get_eq_ok_iff.mp h.stdout)
    · exact Option.isSome_of_eq_some (get_eq_ok_iff.mp h.stderr)
    · exact Option.isSome_of_eq_some (get_eq_ok_iff.mp h.root)
  refine ⟨(keys.filter (4 ≤ ·)).image UInt32.ofNat, ?_, ?_⟩
  · intro fd
    have hopen : fd.toNat ∈ keys ↔ ∃ d, table.get fd = .ok d := by
      simp only [hkeys.mem_iff, get_eq_ok_iff, Option.isSome_iff_exists]
    rw [Finset.mem_image, ← hopen, UInt32.le_iff_toNat_le]
    constructor
    · rintro ⟨key, hkey, rfl⟩
      rw [Finset.mem_filter] at hkey
      rw [hword key hkey.1]
      exact ⟨hkey.2, hkey.1⟩
    · rintro ⟨hfree, hmem⟩
      exact ⟨fd.toNat, Finset.mem_filter.mpr ⟨hmem, hfree⟩, UInt32.ofNat_toNat⟩
  · have hinj : Set.InjOn UInt32.ofNat (keys.filter (4 ≤ ·) : Finset Nat) := by
      intro i hi j hj heq
      have := congrArg UInt32.toNat heq
      rwa [hword i (Finset.mem_filter.mp hi).1, hword j (Finset.mem_filter.mp hj).1] at this
    have hsplit := keys.card_filter_add_card_filter_not (4 ≤ ·)
    rw [hreserved, Finset.card_range] at hsplit
    rw [Finset.card_image_of_injOn hinj, size, hkeys.count_eq]
    omega

/-! ## The table of a session that begins

The four reserved descriptors are kept in an empty arena one after the other, so they get the first
four numbers, and four is the next one. -/

theorem get?_initial {key : Nat} (h : 4 ≤ key) : initial.arena.get? key = none :=
  Arena.get?_of_size_le h

/-- `initial` hands its numbers out from four upwards. -/
theorem order_initial :
    initial.arena.Offers (fun i => i + 4) ∧ ∃ keys, initial.arena.Holds keys := by
  have order0 : (Arena.empty : Arena Descriptor).Offers id := Arena.offers_empty
  have order1 := order0.insert Descriptor.stdin
  have order2 := order1.insert Descriptor.stdout
  have order3 := order2.insert Descriptor.stderr
  have keys1 := Arena.holds_empty.insert order0 Descriptor.stdin
  have keys2 := keys1.insert order1 Descriptor.stdout
  have keys3 := keys2.insert order2 Descriptor.stderr
  exact ⟨order3.insert (.preopened Path.root), _, keys3.insert order3 (.preopened Path.root)⟩

/-- The table of a session that begins is `Sound`. It has no `Opened` descriptor yet. -/
theorem sound_initial : initial.Sound where
  stdin := rfl
  stdout := rfl
  stderr := rfl
  root := rfl
  opened fd d hfree hget := by
    rw [get_eq_ok_iff, get?_initial (UInt32.le_iff_toNat_le.mp hfree)] at hget
    cases hget
  offers := ⟨_, order_initial.1⟩
  holds := order_initial.2
  word key hkey := by
    by_contra hge
    -- what is in use is less than four
    have hfour : 4 ≤ UInt32.size := by decide
    rw [get?_initial (hfour.trans (Nat.le_of_not_lt hge))] at hkey
    cases hkey

end DescriptorTable

end WasiHost
