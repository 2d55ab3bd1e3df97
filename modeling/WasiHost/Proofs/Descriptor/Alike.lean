import WasiHost.Proofs.Descriptor.Table

/-!
# Tables that are used alike

Opening and closing look at no more of a table than which numbers come up next and which are in use.
Two tables that agree on that, and on every descriptor up to what was loaded of a file, go on
agreeing however they are used. Slots may differ: a number that is handed out and given back at once
leaves another arena behind, but one that is alike.

* **`Alike`** — the agreement.
* **`Alike.insert`**, **`Alike.close`** — opening and closing answer alike and keep it.
* **`Sound.close_insert`** — closing what was just opened leads back.
-/

namespace WasiHost

namespace Descriptor

/-- The descriptor with nothing loaded. -/
def unloaded : Descriptor → Descriptor
  | file path offset _ status => file path offset none status
  | other => other

/-- Two descriptors with the same `unloaded` are equal, or files under one path that differ in their
`content`. -/
theorem eq_or_file_of_unloaded {d d' : Descriptor} (h : d'.unloaded = d.unloaded) :
    d' = d ∨ ∃ path offset content content' status,
      d = .file path offset content status ∧ d' = .file path offset content' status := by
  cases d with
  | file path offset content status =>
    cases d' with
    | file path' offset' content' status' =>
      cases h
      exact .inr ⟨path, offset, content, content', status, rfl, rfl⟩
    | _ => cases h
  | _ =>
    cases d' with
    | file => cases h
    | _ => exact .inl h

end Descriptor

namespace DescriptorTable

variable {table table' : DescriptorTable} {fd : Fd} {d : Descriptor}

/-- Two tables hand out the same numbers and agree on every descriptor up to what was loaded. -/
structure Alike (a b : DescriptorTable) : Prop where
  offers : ∃ order, a.arena.Offers order ∧ b.arena.Offers order
  get : ∀ fd, (a.get fd).map Descriptor.unloaded = (b.get fd).map Descriptor.unloaded

/-- What is open in the one table is open in the other, up to `unloaded`. -/
theorem Alike.get_ok {a b : DescriptorTable} (h : a.Alike b) (hget : a.get fd = .ok d) :
    ∃ d', b.get fd = .ok d' ∧ d'.unloaded = d.unloaded := by
  have heq := h.get fd
  rw [hget] at heq
  cases hb : b.get fd with
  | ok d' =>
    rw [hb] at heq
    exact ⟨d', rfl, (Except.ok.inj heq).symm⟩
  | error errno =>
    rw [hb] at heq
    cases heq

/-- Alike tables fail at the same numbers with the same `errno`. -/
theorem Alike.get_error {a b : DescriptorTable} (h : a.Alike b) {errno : ErrNo}
    (hget : a.get fd = .error errno) : b.get fd = .error errno := by
  have heq := h.get fd
  rw [hget] at heq
  cases hb : b.get fd with
  | ok d' =>
    rw [hb] at heq
    cases heq
  | error errno' =>
    rw [hb] at heq
    rw [Except.error.inj heq]

/-- `insert` hands out the same number in alike tables, or fails in both, and keeps them alike. -/
theorem Alike.insert {a b : DescriptorTable} (h : a.Alike b) (d : Descriptor) :
    (∃ errno, a.insert d = .error errno ∧ b.insert d = .error errno) ∨
      ∃ fd a' b', a.insert d = .ok (fd, a') ∧ b.insert d = .ok (fd, b') ∧ a'.Alike b' := by
  obtain ⟨order, ha, hb⟩ := h.offers
  -- both sequences begin with the same number, and the index alone decides whether there is one
  have hnext : a.arena.next = b.arena.next := by rw [← ha.head, hb.head]
  -- numbers have to be words, so a table may be full; both are then
  by_cases hlt : a.arena.next < UInt32.size
  · have hina : a.insert d = .ok (UInt32.ofNat a.arena.next, { arena := a.arena.insert d }) :=
      insert_eq_ok_iff.mpr ⟨hlt, rfl, rfl⟩
    have hinb : b.insert d = .ok (UInt32.ofNat a.arena.next, { arena := b.arena.insert d }) :=
      insert_eq_ok_iff.mpr ⟨hnext ▸ hlt, hnext ▸ rfl, rfl⟩
    refine .inr ⟨_, _, _, hina, hinb, ⟨_, ha.insert d, hb.insert d⟩, fun fd => ?_⟩
    have hget := h.get fd
    simp only [DescriptorTable.get] at hget ⊢
    rw [ha.get?_insert, hb.get?_insert]
    by_cases hfd : fd.toNat = order 0
    · rw [if_pos hfd, if_pos hfd]
    · rw [if_neg hfd, if_neg hfd]
      exact hget
  · refine .inl ⟨.overflow, ?_, ?_⟩
    · rw [DescriptorTable.insert, Fd.ofIndex, if_neg hlt]
    · rw [DescriptorTable.insert, Fd.ofIndex, if_neg (hnext ▸ hlt)]

/-- `close` fails in both of two alike tables, or succeeds in both with the same records and keeps
them alike. -/
theorem Alike.close {a b : DescriptorTable} (h : a.Alike b) (fd : Fd) :
    (∃ errno, a.close fd = .error errno ∧ b.close fd = .error errno) ∨
      ∃ records a' b', a.close fd = .ok (a', records) ∧ b.close fd = .ok (b', records) ∧
        a'.Alike b' := by
  cases hget : a.get fd with
  | error errno =>
    refine .inl ⟨errno, ?_, ?_⟩
    · rw [DescriptorTable.close, hget]
    · rw [DescriptorTable.close, h.get_error hget]
  | ok d =>
    obtain ⟨d', hget', _⟩ := h.get_ok hget
    -- a reserved descriptor is left open in both, any other number is put in front of both
    -- sequences
    cases hres : Fd.isReserved fd with
    | true =>
      refine .inr ⟨[], a, b, ?_, ?_, h⟩
      · exact close_eq_ok_iff.mpr ⟨d, hget, .inl ⟨hres, rfl, rfl⟩⟩
      · exact close_eq_ok_iff.mpr ⟨d', hget', .inl ⟨hres, rfl, rfl⟩⟩
    | false =>
      obtain ⟨order, ha, hb⟩ := h.offers
      refine .inr ⟨[released fd], _, _, close_eq_ok_iff.mpr ⟨d, hget, .inr ⟨hres, rfl, rfl⟩⟩,
        close_eq_ok_iff.mpr ⟨d', hget', .inr ⟨hres, rfl, rfl⟩⟩, ⟨_, ha.erase
          (get_eq_ok_iff.mp hget), hb.erase (get_eq_ok_iff.mp hget')⟩, fun fd' => ?_⟩
      rw [get_close hget, get_close hget']
      by_cases hfd : fd' = fd
      · rw [if_pos hfd, if_pos hfd]
      · rw [if_neg hfd, if_neg hfd]
        exact h.get fd'

/-- A `Sound` table is alike to any that offers the same orders and answers `get` the same up to
`unloaded`. -/
theorem Sound.alike_of_get (h : table.Sound)
    (hoffers : ∀ order, table.arena.Offers order → table'.arena.Offers order)
    (hget : ∀ fd,
      (table'.get fd).map Descriptor.unloaded = (table.get fd).map Descriptor.unloaded) :
    table'.Alike table where
  offers := by
    obtain ⟨order, horder⟩ := h.offers
    exact ⟨order, hoffers order horder, horder⟩
  get := hget

/-- A `Sound` table is alike to itself. `Sound` is needed for there to be an order at all. -/
theorem Sound.alike_refl (h : table.Sound) : table.Alike table :=
  h.alike_of_get (fun _ horder => horder) fun _ => rfl

/-- `set` of a descriptor with the same `unloaded` leaves an alike table. -/
theorem Sound.alike_set (h : table.Sound) {old : Descriptor} (hget : table.get fd = .ok old)
    (hd : d.unloaded = old.unloaded) : (table.set fd d).Alike table := by
  refine h.alike_of_get (fun _ horder => horder.set fd.toNat d) fun fd' => ?_
  by_cases hfd : fd' = fd
  · rw [hfd, get_set_self hget, hget]
    exact congrArg Except.ok hd
  · rw [get_set_of_ne hfd]

/-- `close` of what was just opened by `insert` succeeds, and leaves all descriptors and the numbers
to come as they were before. -/
theorem Sound.close_insert (h : table.Sound) (hins : table.insert d = .ok (fd, table')) :
    ∃ after, table'.close fd = .ok (after, [released fd]) ∧
      (∀ fd', after.get fd' = table.get fd') ∧ after.Alike table := by
  have hfree := isReserved_eq_false_iff.mpr (h.firstFree_le_of_insert hins)
  have hget : table'.get fd = .ok d := by rw [h.get_insert hins, if_pos rfl]
  have hclose := close_eq_ok_iff.mpr ⟨d, hget, .inr ⟨hfree, rfl, rfl⟩⟩
  have hnext := toNat_of_insert hins
  obtain ⟨_, _, rfl⟩ := insert_eq_ok_iff.mp hins
  -- the slot is another one than before, but the sequence of numbers and the values are not
  have hback : ∀ order, table.arena.Offers order →
      ((table.arena.insert d).erase fd.toNat).Offers order ∧
        ∀ key, ((table.arena.insert d).erase fd.toNat).get? key = table.arena.get? key := by
    intro order horder
    rw [hnext, ← horder.head]
    exact horder.erase_insert d
  have hsame : ∀ fd',
      ({ arena := (table.arena.insert d).erase fd.toNat } : DescriptorTable).get fd' =
      table.get fd' := by
    obtain ⟨order, horder⟩ := h.offers
    intro fd'
    exact get_congr ((hback order horder).2 fd'.toNat)
  refine ⟨_, hclose, hsame, h.alike_of_get (fun order horder => (hback order horder).1) ?_⟩
  intro fd'
  rw [hsame]

end DescriptorTable

end WasiHost
