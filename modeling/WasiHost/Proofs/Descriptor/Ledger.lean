import Mathlib.Data.Finmap
import WasiHost.Proofs.Descriptor.Table

/-!
# Descriptor tables as ledgers

Seen from outside a descriptor table is a finite map and a stack: the map has the descriptors under
their numbers, the stack has the numbers that were given back and not handed out since. The slots,
the links between the vacant ones and the count are one way to keep such a ledger.

* **`Ledger`** — the map, the stack, and how many numbers were ever handed out.
* **`Tells`** — what a ledger says of the slots of a table.
* **`Tells.act`** — whatever is done with both, they agree on the outcome and on what is there then.
* **`Follows`**, **`run_follows`** — a table that is used in any way behaves as the ledger that is
  used in the same way. -/

namespace WasiHost

/-- Something that is done with a table of descriptors. -/
inductive TableAct where
  /-- A descriptor is kept under a free number. -/
  | keep (d : Descriptor)
  /-- A descriptor is put in place of the one under a number. -/
  | replace (fd : Fd) (d : Descriptor)
  /-- A number is given back. -/
  | close (fd : Fd)

/-- Descriptors under numbers, and the numbers to be handed out. -/
structure Ledger where
  entries : Finmap fun _ : Fd => Descriptor
  /-- The numbers that were given back and not handed out since, the one given back last on top. -/
  released : List Fd
  /-- How many numbers were ever handed out. -/
  used : Nat

namespace Ledger

/-- The ledger of a session that begins. -/
def initial : Ledger where
  entries := (((Finmap.insert Fd.stdin .stdin ∅).insert Fd.stdout .stdout).insert Fd.stderr
    .stderr).insert Fd.root (.preopened Path.root)
  released := []
  used := 4

/-- The descriptor that a ledger has under a number. -/
def get (ledger : Ledger) (fd : Fd) : Except ErrNo Descriptor :=
  match ledger.entries.lookup fd with
  | some d => .ok d
  | none => .error .badF

/-- The ledger after something was done, with the number that was concerned. A number that was given
back is handed out before one that was never used, and only words are numbers. -/
def act (ledger : Ledger) : TableAct → Except ErrNo Fd × Ledger
  | .keep d =>
    match ledger.released with
    | fd :: rest =>
      (.ok fd, { ledger with entries := ledger.entries.insert fd d, released := rest })
    | [] =>
      match Fd.ofIndex ledger.used with
      | .ok fd =>
        (.ok fd, { ledger with entries := ledger.entries.insert fd d, used := ledger.used + 1 })
      | .error errno => (.error errno, ledger)
  | .replace fd d =>
    match ledger.entries.lookup fd with
    | some _ => (.ok fd, { ledger with entries := ledger.entries.insert fd d })
    | none => (.error .badF, ledger)
  | .close fd =>
    match ledger.entries.lookup fd with
    | some _ =>
      if Fd.isReserved fd then (.ok fd, ledger)
      else
        (.ok fd, { ledger with
          entries := ledger.entries.erase fd, released := fd :: ledger.released })
    | none => (.error .badF, ledger)

/-- The ledger after acts, one after the other. -/
def run (ledger : Ledger) (acts : List TableAct) : Ledger :=
  acts.foldl (fun ledger act => (ledger.act act).2) ledger

/-- The numbers to come, if none is given back in between. -/
def order (ledger : Ledger) : Nat → Nat :=
  (ledger.released.map UInt32.toNat).foldr Arena.before fun i => ledger.used + i

/-- `Finmap.lookup_insert` and `lookup_insert_of_ne` as one equation. -/
theorem lookup_insert (entries : Finmap fun _ : Fd => Descriptor) (fd : Fd) (d : Descriptor)
    (fd' : Fd) :
    (entries.insert fd d).lookup fd' = if fd' = fd then some d else entries.lookup fd' := by
  by_cases h : fd' = fd
  · rw [if_pos h, h, Finmap.lookup_insert]
  · rw [if_neg h, Finmap.lookup_insert_of_ne _ h]

/-- `Finmap.lookup_erase` and `lookup_erase_ne` as one equation. -/
theorem lookup_erase (entries : Finmap fun _ : Fd => Descriptor) (fd fd' : Fd) :
    (entries.erase fd).lookup fd' = if fd' = fd then none else entries.lookup fd' := by
  by_cases h : fd' = fd
  · rw [if_pos h, h, Finmap.lookup_erase]
  · rw [if_neg h, Finmap.lookup_erase_ne h]

theorem keys_insert (entries : Finmap fun _ : Fd => Descriptor) (fd : Fd) (d : Descriptor) :
    (entries.insert fd d).keys = insert fd entries.keys := by
  ext fd'
  rw [Finmap.mem_keys, Finmap.mem_insert, Finset.mem_insert, Finmap.mem_keys]

end Ledger

namespace DescriptorTable

variable {table table' : DescriptorTable} {ledger : Ledger} {fd : Fd} {d : Descriptor}

/-- The table after something was done, with the number that was concerned. -/
def act (table : DescriptorTable) : TableAct → Except ErrNo Fd × DescriptorTable
  | .keep d =>
    match table.insert d with
    | .ok (fd, table') => (.ok fd, table')
    | .error errno => (.error errno, table)
  | .replace fd d =>
    match table.get fd with
    | .ok _ => (.ok fd, table.set fd d)
    | .error errno => (.error errno, table)
  | .close fd =>
    match table.close fd with
    | .ok (table', _) => (.ok fd, table')
    | .error errno => (.error errno, table)

/-- The table after acts, one after the other. -/
def run (table : DescriptorTable) (acts : List TableAct) : DescriptorTable :=
  acts.foldl (fun table act => (table.act act).2) table

end DescriptorTable

/-- What a ledger says of the slots of a table. -/
structure Ledger.Tells (ledger : Ledger) (table : DescriptorTable) : Prop where
  entries : ∀ fd : Fd, table.arena.get? fd.toNat = ledger.entries.lookup fd
  /-- The links of the vacant slots lead through the stack from its top, and then upwards. -/
  offers : table.arena.Offers ledger.order
  size : table.arena.slots.size = ledger.used
  below : ∀ fd ∈ ledger.released, fd.toNat < ledger.used
  reserved : ∀ fd, ¬ Fd.firstFree ≤ fd → fd ∈ ledger.entries
  count : table.arena.count = ledger.entries.keys.card

namespace Ledger.Tells

variable {table : DescriptorTable} {ledger ledger' : Ledger} {fd : Fd} {d : Descriptor}

/-- `DescriptorTable.get` finds under a number what `Ledger.get` has there. -/
theorem get (h : ledger.Tells table) (fd : Fd) : table.get fd = ledger.get fd := by
  cases hd : ledger.entries.lookup fd with
  | none => simp only [DescriptorTable.get, Ledger.get, h.entries, hd]
  | some d => simp only [DescriptorTable.get, Ledger.get, h.entries, hd]

/-! ## Each act

For each act the outcome is the same, and the ledger that results tells the table that results. Of
an arena `Offers` is used and nothing else, so the slots and their links are not looked at here. -/

/-- `Arena.insert` keeps a descriptor under `order 0`, which the ledger takes off. -/
theorem insert (h : ledger.Tells table) (d : Descriptor) (hfd : ledger.order 0 = fd.toNat)
    (hentries : ledger'.entries = ledger.entries.insert fd d)
    (horder : ledger'.order = fun i => ledger.order (i + 1))
    (hused : (table.arena.insert d).slots.size = ledger'.used)
    (hbelow : ∀ fd ∈ ledger'.released, fd.toNat < ledger'.used) :
    ledger'.Tells { arena := table.arena.insert d } := by
  -- the number that is handed out is not in use, so the count goes up
  have hnew : fd ∉ ledger.entries := by
    have hnone := h.offers.get?_order 0
    rw [hfd, h.entries] at hnone
    exact Finmap.lookup_eq_none.mp hnone
  refine ⟨?entries, ?offers, hused, hbelow, ?reserved, ?count⟩
  case entries =>
    intro fd'
    have hget := h.offers.get?_insert d fd'.toNat
    rw [hfd, h.entries] at hget
    simp only [UInt32.toNat_inj] at hget
    rw [hentries, lookup_insert]
    exact hget
  case offers =>
    rw [horder]
    exact h.offers.insert d
  case reserved =>
    intro fd' hfd'
    rw [hentries, Finmap.mem_insert]
    exact .inr (h.reserved fd' hfd')
  case count =>
    have hcount := (h.offers.insert_slots d 0).2.2
    have hcard := Finset.card_insert_of_notMem (mt Finmap.mem_keys.mp hnew)
    rw [hentries, keys_insert, hcard, ← h.count]
    exact hcount

/-- Act `keep`. The two cases are those of the stack: its top is handed out if there is one, and
otherwise `used`, the next number that was never handed out, if it is a word. -/
theorem keep (h : ledger.Tells table) (d : Descriptor) :
    (table.act (.keep d)).1 = (ledger.act (.keep d)).1 ∧
      (ledger.act (.keep d)).2.Tells (table.act (.keep d)).2 := by
  have hnext := h.offers.head
  have hsize := h.offers.size_insert d
  obtain ⟨entries, released, used⟩ := ledger
  cases released with
  | cons fd rest =>
    -- the top of the stack is a number that was handed out before, so it is a word
    have hfd : table.arena.next = fd.toNat := hnext.symm
    have hins : table.insert d = .ok (fd, { arena := table.arena.insert d }) := by
      refine DescriptorTable.insert_eq_ok_iff.mpr ⟨hfd ▸ fd.toNat_lt, ?_, rfl⟩
      rw [hfd, UInt32.ofNat_toNat]
    obtain ⟨hbelow, hbelows⟩ := List.forall_mem_cons.mp h.below
    have hlt : Ledger.order ⟨entries, fd :: rest, used⟩ 0 < table.arena.slots.size := by
      rw [h.size]
      exact hbelow
    rw [if_pos hlt] at hsize
    simp only [DescriptorTable.act, Ledger.act, hins]
    exact ⟨trivial, h.insert d rfl rfl rfl (hsize.trans h.size) hbelows⟩
  | nil =>
    -- all slots are in use, so the number that comes next is how many there are
    have hfd : table.arena.next = used := hnext.symm
    have hge : ¬ Ledger.order ⟨entries, [], used⟩ 0 < table.arena.slots.size := by
      rw [h.size]
      exact Nat.lt_irrefl used
    rw [if_neg hge, h.size] at hsize
    by_cases hword : used < UInt32.size
    · have hins : table.insert d = .ok (UInt32.ofNat used, { arena := table.arena.insert d }) :=
        DescriptorTable.insert_eq_ok_iff.mpr ⟨hfd ▸ hword, by rw [hfd], rfl⟩
      have hindex : Fd.ofIndex used = .ok (UInt32.ofNat used) := if_pos hword
      have horder : Ledger.order ⟨entries, [], used⟩ 0 = (UInt32.ofNat used).toNat := by
        rw [UInt32.toNat_ofNat', Nat.mod_eq_of_lt hword]
        rfl
      simp only [DescriptorTable.act, Ledger.act, hins, hindex]
      refine ⟨trivial, h.insert d horder rfl ?_ hsize nofun⟩
      funext i
      show used + 1 + i = used + (i + 1)
      omega
    · have hins : table.insert d = .error .overflow := by
        rw [DescriptorTable.insert, Fd.ofIndex, hfd, if_neg hword]
      have hindex : Fd.ofIndex used = .error .overflow := if_neg hword
      simp only [DescriptorTable.act, Ledger.act, hins, hindex]
      exact ⟨trivial, h⟩

/-- Act `replace` concerns one entry of the map. -/
theorem replace (h : ledger.Tells table) (fd : Fd) (d : Descriptor) :
    (table.act (.replace fd d)).1 = (ledger.act (.replace fd d)).1 ∧
      (ledger.act (.replace fd d)).2.Tells (table.act (.replace fd d)).2 := by
  have hget := h.get fd
  rw [Ledger.get] at hget
  -- what is not open is not replaced
  cases hold : ledger.entries.lookup fd with
  | none =>
    rw [hold] at hget
    simp only [DescriptorTable.act, Ledger.act, hget, hold]
    exact ⟨trivial, h⟩
  | some old =>
    rw [hold] at hget
    simp only [DescriptorTable.act, Ledger.act, hget, hold]
    have hopen : fd ∈ ledger.entries := Finmap.mem_of_lookup_eq_some hold
    refine ⟨trivial, ?entries, h.offers.set _ _, ?size, h.below, ?reserved, ?count⟩
    case entries =>
      intro fd'
      have hset := Arena.get?_set table.arena fd.toNat d fd'.toNat
      simp only [UInt32.toNat_inj, h.entries, hold, Option.isSome_some, and_true] at hset
      rw [lookup_insert]
      exact hset
    case size => exact (Arena.size_set _ _ _).trans h.size
    case reserved =>
      intro fd' hfd'
      exact Finmap.mem_insert.mpr (.inr (h.reserved fd' hfd'))
    case count =>
      -- the number has an entry, so the set of numbers stays
      have hkeys : Insert.insert fd ledger.entries.keys = ledger.entries.keys :=
        Finset.insert_eq_of_mem (Finmap.mem_keys.mpr hopen)
      rw [keys_insert, hkeys]
      exact (Arena.count_set _ _ _).trans h.count

/-- Act `close` takes the entry away and pushes the number onto `released`, unless it is
reserved. -/
theorem close (h : ledger.Tells table) (fd : Fd) :
    (table.act (.close fd)).1 = (ledger.act (.close fd)).1 ∧
      (ledger.act (.close fd)).2.Tells (table.act (.close fd)).2 := by
  have hget := h.get fd
  rw [Ledger.get] at hget
  cases hold : ledger.entries.lookup fd with
  | none =>
    rw [hold] at hget
    simp only [DescriptorTable.act, DescriptorTable.close, Ledger.act, hget, hold]
    exact ⟨trivial, h⟩
  | some old =>
    rw [hold] at hget
    cases hreserved : Fd.isReserved fd with
    | true =>
      simp only [DescriptorTable.act, DescriptorTable.close, Ledger.act, hget, hold, hreserved,
        if_true]
      exact ⟨trivial, h⟩
    | false =>
      simp only [DescriptorTable.act, DescriptorTable.close, Ledger.act, hget, hold, hreserved,
        Bool.false_eq_true, if_false]
      have hslot := DescriptorTable.get_eq_ok_iff.mp hget
      have hopen : fd ∈ ledger.entries := Finmap.mem_of_lookup_eq_some hold
      refine ⟨trivial, ?entries, h.offers.erase hslot, ?size, ?below, ?reserved, ?count⟩
      case entries =>
        intro fd'
        have herase := Arena.get?_erase hslot fd'.toNat
        simp only [UInt32.toNat_inj, h.entries] at herase
        rw [lookup_erase]
        exact herase
      case size => exact (Arena.size_erase _ _).trans h.size
      case below =>
        -- what was open lies in a slot
        have hlt := h.size ▸ Arena.lt_size_of_get? hslot
        exact List.forall_mem_cons.mpr ⟨hlt, h.below⟩
      case reserved =>
        intro fd' hfd'
        have hne : fd' ≠ fd := by
          rintro rfl
          exact hfd' (DescriptorTable.isReserved_eq_false_iff.mp hreserved)
        exact Finmap.mem_erase.mpr ⟨hne, h.reserved fd' hfd'⟩
      case count =>
        have hcard := Finset.card_erase_of_mem (Finmap.mem_keys.mpr hopen)
        rw [Finmap.keys_erase, hcard, ← h.count, Arena.erase_eq_of_get? hslot]

/-- One step: whatever `act` is done with a table and the ledger that `Tells` it, the outcome is the
same for both, and the new ledger tells the new table. -/
theorem act (h : ledger.Tells table) (act : TableAct) :
    (table.act act).1 = (ledger.act act).1 ∧ (ledger.act act).2.Tells (table.act act).2 := by
  cases act with
  | keep d => exact h.keep d
  | replace fd d => exact h.replace fd d
  | close fd => exact h.close fd

/-- The run lemma, by induction on the acts with `Tells.act` as the step. -/
theorem run (h : ledger.Tells table) (acts : List TableAct) :
    (ledger.run acts).Tells (table.run acts) := by
  induction acts generalizing ledger table with
  | nil => exact h
  | cons act rest ih => exact ih (h.act act).2

end Ledger.Tells

/-- `Ledger.initial` tells `DescriptorTable.initial`. -/
theorem Ledger.tells_initial : Ledger.initial.Tells DescriptorTable.initial where
  entries fd := by
    simp only [Ledger.initial, Ledger.lookup_insert, Finmap.lookup_empty]
    by_cases hfree : Fd.firstFree ≤ fd
    · have hne {fd' : Fd} (hlt : ¬ Fd.firstFree ≤ fd') : fd ≠ fd' := by
        rintro rfl
        exact hlt hfree
      rw [DescriptorTable.get?_initial (UInt32.le_iff_toNat_le.mp hfree), if_neg (hne (by decide)),
        if_neg (hne (by decide)), if_neg (hne (by decide)), if_neg (hne (by decide))]
    · -- a reserved number is one of four, so the two lookups can be computed
      rcases DescriptorTable.sound_initial.reserved_cases hfree with
        ⟨rfl, _⟩ | ⟨rfl, _⟩ | ⟨rfl, _⟩ | ⟨rfl, _⟩
      all_goals decide
  offers := by
    have horder : Ledger.initial.order = fun i => i + 4 := funext fun i => Nat.add_comm 4 i
    rw [horder]
    exact DescriptorTable.order_initial.1
  size := rfl
  below := nofun
  reserved fd hfree := by
    simp only [Ledger.initial, Finmap.mem_insert]
    rcases DescriptorTable.sound_initial.reserved_cases hfree with
      ⟨rfl, _⟩ | ⟨rfl, _⟩ | ⟨rfl, _⟩ | ⟨rfl, _⟩
    all_goals simp
  count := by
    simp only [Ledger.initial, Ledger.keys_insert, Finmap.keys_empty]
    decide

/-! ## Tables that are used in any way

What the ledger is good for: `Follows` says how a table behaves without saying how it is stored. -/

namespace DescriptorTable

variable {table : DescriptorTable} {ledger : Ledger}

/-- A table behaves as a ledger. -/
structure Follows (table : DescriptorTable) (ledger : Ledger) : Prop where
  /-- What is done next succeeds or fails as the ledger says, and concerns the same number. -/
  outcome : ∀ act, (table.act act).1 = (ledger.act act).1
  /-- What is found is what the map has. -/
  get : ∀ fd, table.get fd = ledger.get fd
  /-- The number of a descriptor that is kept is the one that was given back last, or else the
  number of slots ever used. It is not reserved and was not open, and nothing else changes. -/
  keep : ∀ d fd table', table.insert d = .ok (fd, table') →
    (ledger.released.head? = some fd ∨ ledger.released = [] ∧ fd.toNat = ledger.used) ∧
      Fd.firstFree ≤ fd ∧ table.get fd = .error .badF ∧
      ∀ fd', table'.get fd' = if fd' = fd then .ok d else table.get fd'
  /-- There is a number for it as long as the slots are fewer than the words. -/
  room : ledger.used < UInt32.size → ∀ d, ∃ fd table', table.insert d = .ok (fd, table')
  /-- What is put in place of an open descriptor is found there, and nothing else changes. -/
  replace : ∀ fd d old, table.get fd = .ok old →
    ∀ fd', (table.set fd d).get fd' = if fd' = fd then .ok d else table.get fd'
  /-- Closing a descriptor that is not reserved removes it and nothing else. -/
  close : ∀ fd d, Fd.firstFree ≤ fd → table.get fd = .ok d →
    ∃ table', table.close fd = .ok (table', [released fd]) ∧
      ∀ fd', table'.get fd' = if fd' = fd then .error .badF else table.get fd'
  close_reserved : ∀ fd, ¬ Fd.firstFree ≤ fd → table.close fd = .ok (table, [])
  close_absent : ∀ fd, (∀ d, table.get fd ≠ .ok d) → table.close fd = .error .badF
  /-- The size is the number of open descriptors. -/
  size : table.size = ledger.entries.keys.card
  slots : table.arena.slots.size = ledger.used

/-- A table that a ledger tells behaves as it, in each of the respects of `Follows`. -/
theorem follows_of_tells (h : ledger.Tells table) : table.Follows ledger where
  outcome act := (h.act act).1
  get := h.get
  keep d fd table' hins := by
    have hnone := get_of_insert h.offers hins
    have habsent : fd ∉ ledger.entries := by
      rw [h.entries] at hnone
      exact Finmap.lookup_eq_none.mp hnone
    refine ⟨?number, ?free, ?absent, get_insert h.offers hins⟩
    case number =>
      have hnext : fd.toNat = ledger.order 0 := (toNat_of_insert hins).trans h.offers.head.symm
      unfold Ledger.order at hnext
      -- the first number to come is the top of the stack, or there is no stack
      cases hreleased : ledger.released with
      | nil =>
        rw [hreleased] at hnext
        exact .inr ⟨rfl, hnext⟩
      | cons top rest =>
        rw [hreleased] at hnext
        exact .inl (congrArg some (UInt32.toNat_inj.mp hnext).symm)
    case free =>
      by_contra hreserved
      exact habsent (h.reserved fd hreserved)
    case absent => rw [get, hnone]
  room hused d := by
    have hlt : table.arena.next < UInt32.size :=
      (h.offers.next_le_size.trans_eq h.size).trans_lt hused
    exact ⟨_, _, insert_eq_ok_iff.mpr ⟨hlt, rfl, rfl⟩⟩
  replace fd d old hget fd' := by
    have hsome : (table.arena.get? fd.toNat).isSome := by
      rw [get_eq_ok_iff.mp hget]
      rfl
    simp only [get_set, hsome, and_true]
  close fd d hfree hget := by
    have hnot : Fd.isReserved fd = false := isReserved_eq_false_iff.mpr hfree
    exact ⟨_, close_of_get hget hnot, get_close hget⟩
  close_reserved fd hreserved := by
    obtain ⟨d, hd⟩ := Finmap.mem_iff.mp (h.reserved fd hreserved)
    have hget : table.get fd = .ok d := by
      rw [h.get, Ledger.get, hd]
    have hyes : Fd.isReserved fd = true := by
      rw [← isReserved_eq_false_iff] at hreserved
      simpa using hreserved
    exact close_eq_ok_iff.mpr ⟨d, hget, .inl ⟨hyes, rfl, rfl⟩⟩
  close_absent fd habsent := by
    have hget := h.get fd
    rw [Ledger.get] at hget
    cases hd : ledger.entries.lookup fd with
    | some d =>
      rw [hd] at hget
      exact absurd hget (habsent d)
    | none =>
      rw [hd] at hget
      rw [DescriptorTable.close, hget]
  size := h.count
  slots := h.size

/-- A table that is used in any way from `initial` on behaves as the ledger that is used in the same
way. -/
theorem run_follows (acts : List TableAct) :
    (initial.run acts).Follows (Ledger.initial.run acts) :=
  follows_of_tells (Ledger.tells_initial.run acts)

/-- Of two numbers that were given back the last one is handed out first. -/
example :
    let file : TableAct := .keep (.directory "/d" default)
    ((initial.run [file, file, file, .close 4, .close 6]).act file).1 = .ok 6 := by decide

end DescriptorTable

end WasiHost
