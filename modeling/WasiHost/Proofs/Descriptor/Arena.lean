import Mathlib.Data.Finset.Card
import WasiHost.Descriptor.Arena

/-!
# The order in which an arena hands out numbers

A number that is not in use has a *link*: the number to be handed out after it. In a vacant slot the
link is stored; a number that was never used links to the next one. Following the links from `next`
gives all numbers that are not in use, each once. That endless sequence, with the values under the
numbers in use, is all that later insertions and erasures can tell of an arena: two arenas may hold
their slots differently and still be used alike.

* **`Offers`** — the sequence of the numbers handed out if nothing is given back in between.
* **`Offers.insert`**, **`Offers.erase`** — an insertion takes the first number off the sequence, an
  erasure puts one in front of it.
* **`Holds`** — the finite set of the numbers in use, whose size is `count`.
-/

namespace WasiHost

namespace Arena

variable {α : Type} {arena : Arena α} {order : Nat → Nat}

/-- The number to be handed out after one that is not in use. -/
def link? (arena : Arena α) (key : Nat) : Option Nat :=
  match arena.slots[key]? with
  | some (.occupied _) => none
  | some (.vacant next) => some next
  | none => some (key + 1)

/-- `link?` is `none` exactly for a key that `get?` finds. -/
theorem link?_eq_none_iff {key : Nat} : arena.link? key = none ↔ (arena.get? key).isSome := by
  unfold link? get?
  cases arena.slots[key]? with
  | none => simp
  | some slot => cases slot <;> simp

theorem get?_eq_none_of_link? {key next : Nat} (h : arena.link? key = some next) :
    arena.get? key = none := by
  have hne : ¬ (arena.get? key).isSome := by
    rw [← link?_eq_none_iff, h]
    simp
  simpa using hne

/-- `get?` finds nothing beyond `slots`. -/
theorem get?_of_size_le {key : Nat} (h : arena.slots.size ≤ key) : arena.get? key = none := by
  rw [get?, Array.getElem?_eq_none h]

/-- Beyond `slots` a key links to its successor. -/
theorem link?_of_size_le {key : Nat} (h : arena.slots.size ≤ key) :
    arena.link? key = some (key + 1) := by
  rw [link?, Array.getElem?_eq_none h]

theorem lt_size_of_get? {key : Nat} {value : α} (h : arena.get? key = some value) :
    key < arena.slots.size := by
  by_contra hle
  rw [get?_of_size_le (Nat.le_of_not_lt hle)] at h
  cases h

/-! ## The sequence of numbers to come

The chain of links may wind through the slots in any way, so it is not followed here but named:
`order i` is the number that comes up after `i` insertions. What an operation does to the chain is
then an equation between sequences. -/

/-- The sequence of the numbers that an arena hands out if nothing is given back in between. -/
structure Offers (arena : Arena α) (order : Nat → Nat) : Prop where
  head : order 0 = arena.next
  link : ∀ i, arena.link? (order i) = some (order (i + 1))
  injective : ∀ i j, order i = order j → i = j
  /-- Every number that is not in use comes up. -/
  complete : ∀ key, arena.get? key = none → ∃ i, order i = key

/-- A number in front of a sequence. -/
def before (key : Nat) (order : Nat → Nat) : Nat → Nat
  | 0 => key
  | i + 1 => order i

/-- No key of `order` is in use. -/
theorem Offers.get?_order (h : arena.Offers order) (i : Nat) : arena.get? (order i) = none :=
  get?_eq_none_of_link? (h.link i)

/-- From the first key beyond `slots` on, `order` counts upwards: such a key links to its
successor. -/
theorem Offers.order_add (h : arena.Offers order) {i : Nat} (hi : arena.slots.size ≤ order i)
    (j : Nat) : order (i + j) = order i + j := by
  induction j with
  | zero => rfl
  | succ j ih =>
    have hlink := h.link (i + j)
    rw [ih, link?_of_size_le (by omega), Option.some.injEq] at hlink
    rw [← Nat.add_assoc, ← hlink, Nat.add_assoc]

/-- `next` is a vacant slot or `slots.size`, the first key that was never used. -/
theorem Offers.next_le_size (h : arena.Offers order) : arena.next ≤ arena.slots.size := by
  -- the first number that was never used comes up, but a sequence that begins beyond it only rises
  obtain ⟨j, hj⟩ := h.complete _ (get?_of_size_le (Nat.le_refl _))
  by_contra hlt
  rw [← h.head] at hlt
  have hup := h.order_add (i := 0) (by omega) j
  rw [Nat.zero_add] at hup
  omega

/-- What `insert` does, slot by slot: `order 0` is occupied and `next` moves on to `order 1`. -/
theorem Offers.insert_slots (h : arena.Offers order) (value : α) (key : Nat) :
    (arena.insert value).slots[key]? =
        (if key = order 0 then some (.occupied value) else arena.slots[key]?) ∧
      (arena.insert value).next = order 1 ∧ (arena.insert value).count = arena.count + 1 := by
  have hlink : arena.link? (order 0) = some (order 1) := h.link 0
  have hle := h.next_le_size
  rw [h.head] at hlink ⊢
  unfold link? at hlink
  unfold insert
  -- the next slot is vacant, or it is the one after the last
  cases hslot : arena.slots[arena.next]? with
  | none =>
    rw [hslot] at hlink
    have hsize : arena.next = arena.slots.size :=
      Nat.le_antisymm hle (Array.getElem?_eq_none_iff.mp hslot)
    simp only [Option.some.injEq] at hlink
    refine ⟨?_, by simp only; omega, rfl⟩
    simp only
    rw [Array.getElem?_push, hsize]
  | some slot =>
    rw [hslot] at hlink
    obtain ⟨hlt, _⟩ := Array.getElem?_eq_some_iff.mp hslot
    cases slot with
    | occupied _ => simp at hlink
    | vacant next =>
      simp only [Option.some.injEq] at hlink
      refine ⟨?_, hlink, rfl⟩
      simp only
      rw [Array.getElem?_setIfInBounds]
      by_cases hkey : key = arena.next
      · rw [if_pos hkey.symm, if_pos hlt, if_pos hkey]
      · rw [if_neg (Ne.symm hkey), if_neg hkey]

/-- `insert` adds a slot if `order 0` is the first key beyond `slots`. -/
theorem Offers.size_insert (h : arena.Offers order) (value : α) :
    (arena.insert value).slots.size =
      if order 0 < arena.slots.size then arena.slots.size else arena.slots.size + 1 := by
  have hlink : arena.link? (order 0) = some (order 1) := h.link 0
  rw [h.head] at hlink ⊢
  unfold link? at hlink
  unfold insert
  cases hslot : arena.slots[arena.next]? with
  | none =>
    -- no vacant slot is left
    have hle : arena.slots.size ≤ arena.next := Array.getElem?_eq_none_iff.mp hslot
    rw [if_neg (by omega)]
    exact Array.size_push _
  | some slot =>
    rw [hslot] at hlink
    obtain ⟨hlt, _⟩ := Array.getElem?_eq_some_iff.mp hslot
    cases slot with
    | occupied _ => simp at hlink
    | vacant next =>
      rw [if_pos hlt]
      exact Array.size_setIfInBounds

/-- `insert` puts the value under `order 0`, and every other key answers `get?` as before. -/
theorem Offers.get?_insert (h : arena.Offers order) (value : α) (key : Nat) :
    (arena.insert value).get? key = if key = order 0 then some value else arena.get? key := by
  rw [get?, (h.insert_slots value key).1]
  by_cases hkey : key = order 0
  · rw [if_pos hkey, if_pos hkey]
  · rw [if_neg hkey, if_neg hkey, get?]

/-- `insert` changes no link but that of `order 0`, which has none afterwards. -/
theorem Offers.link?_insert (h : arena.Offers order) (value : α) {key : Nat}
    (hkey : key ≠ order 0) : (arena.insert value).link? key = arena.link? key := by
  rw [link?, (h.insert_slots value key).1, if_neg hkey, link?]

/-- `insert` takes `order 0` off the sequence: the arena offers the rest of `order`. -/
theorem Offers.insert (h : arena.Offers order) (value : α) :
    (arena.insert value).Offers fun i => order (i + 1) where
  head := (h.insert_slots value 0).2.1.symm
  link i := by
    rw [h.link?_insert value fun heq => by simpa using h.injective _ _ heq]
    exact h.link (i + 1)
  injective i j heq := by simpa using h.injective _ _ heq
  complete key hkey := by
    rw [h.get?_insert] at hkey
    -- the first number is now in use; any other has come up later and comes up one earlier
    by_cases hhead : key = order 0
    · rw [if_pos hhead] at hkey
      cases hkey
    · rw [if_neg hhead] at hkey
      obtain ⟨i, rfl⟩ := h.complete key hkey
      cases i with
      | zero => exact absurd rfl hhead
      | succ i => exact ⟨i, rfl⟩

/-! ## Giving numbers back

The number given back gets a slot that links to the one that was next, and is the next one itself.
So it stands in front of the sequence: `before`. -/

/-- `erase` of a key in use: the slot is vacant, links to the old `next`, and is itself `next`. -/
theorem erase_eq_of_get? {key : Nat} {value : α} (h : arena.get? key = some value) :
    arena.erase key =
      { slots := arena.slots.setIfInBounds key (.vacant arena.next), next := key,
        count := arena.count - 1 } := by
  rw [erase, h]

/-- After `erase` the key is no longer in use, and `get?` of all others is as before. -/
theorem get?_erase {key : Nat} {value : α} (h : arena.get? key = some value) (i : Nat) :
    (arena.erase key).get? i = if i = key then none else arena.get? i := by
  rw [erase_eq_of_get? h, get?, Array.getElem?_setIfInBounds]
  by_cases hi : i = key
  · rw [if_pos hi.symm, if_pos (lt_size_of_get? h), if_pos hi]
  · rw [if_neg (Ne.symm hi), if_neg hi, get?]

/-- The key that `erase` gives back links to the old `next`. All other links stay. -/
theorem link?_erase {key : Nat} {value : α} (h : arena.get? key = some value) (i : Nat) :
    (arena.erase key).link? i = if i = key then some arena.next else arena.link? i := by
  rw [erase_eq_of_get? h, link?, Array.getElem?_setIfInBounds]
  by_cases hi : i = key
  · rw [if_pos hi.symm, if_pos (lt_size_of_get? h), if_pos hi]
  · rw [if_neg (Ne.symm hi), if_neg hi, link?]

theorem size_erase (arena : Arena α) (key : Nat) :
    (arena.erase key).slots.size = arena.slots.size := by
  rw [erase]
  cases arena.get? key with
  | none => rfl
  | some value => exact Array.size_setIfInBounds

/-- `erase` puts the key in front of the sequence: the arena offers `before key order`. -/
theorem Offers.erase (h : arena.Offers order) {key : Nat} {value : α}
    (hkey : arena.get? key = some value) : (arena.erase key).Offers (before key order) := by
  -- a number in use is not in the sequence, so it does not come up twice once it is put in front
  have hfree : ∀ i, order i ≠ key := by
    rintro i rfl
    rw [h.get?_order i] at hkey
    cases hkey
  exact
    { head := by rw [erase_eq_of_get? hkey]; rfl
      link := fun i => by
        rw [link?_erase hkey]
        cases i with
        | zero => simp [before, h.head]
        | succ i => simpa [before, hfree i] using h.link i
      injective := fun i j heq => by
        cases i with
        | zero =>
          cases j with
          | zero => rfl
          | succ j => exact absurd heq.symm (hfree j)
        | succ i =>
          cases j with
          | zero => exact absurd heq (hfree i)
          | succ j => rw [h.injective i j heq]
      complete := fun i hi => by
        rw [get?_erase hkey] at hi
        by_cases hik : i = key
        · exact ⟨0, hik.symm⟩
        · rw [if_neg hik] at hi
          obtain ⟨j, hj⟩ := h.complete i hi
          exact ⟨j + 1, hj⟩ }

/-- `insert` and then `erase` of the key it gave: the arena offers `order` again and `get?` is as
before, as if nothing had happened. -/
theorem Offers.erase_insert (h : arena.Offers order) (value : α) :
    ((arena.insert value).erase (order 0)).Offers order ∧
      ∀ key, ((arena.insert value).erase (order 0)).get? key = arena.get? key := by
  have hget : (arena.insert value).get? (order 0) = some value := by
    rw [h.get?_insert, if_pos rfl]
  constructor
  · -- the first number is taken off the sequence and put back in front
    have hback : before (order 0) (fun i => order (i + 1)) = order := by
      funext i
      cases i <;> rfl
    simpa only [hback] using (h.insert value).erase hget
  · intro key
    rw [get?_erase hget, h.get?_insert]
    by_cases hkey : key = order 0
    · rw [if_pos hkey, hkey, h.get?_order 0]
    · rw [if_neg hkey, if_neg hkey]

/-! ## Replacing values

A value that takes the place of another changes neither which numbers are in use nor how they are
linked. Replacements are compared as arenas, since the order in which they are made cannot be told
from the slots. -/

/-- `set` changes `get?` at a key that was in use, and nowhere else. -/
theorem get?_set (arena : Arena α) (key : Nat) (value : α) (i : Nat) :
    (arena.set key value).get? i =
      if i = key ∧ (arena.get? key).isSome then some value else arena.get? i := by
  rw [set]
  cases hget : arena.get? key with
  | none => simp
  | some old =>
    simp only [Option.isSome_some, and_true]
    rw [get?, Array.getElem?_setIfInBounds]
    by_cases hi : i = key
    · rw [if_pos hi.symm, if_pos (lt_size_of_get? hget), if_pos hi]
    · rw [if_neg (Ne.symm hi), if_neg hi, get?]

/-- `set` keeps all links, also that of `key` itself: it has none. -/
theorem link?_set (arena : Arena α) (key : Nat) (value : α) (i : Nat) :
    (arena.set key value).link? i = arena.link? i := by
  rw [set]
  cases hget : arena.get? key with
  | none => rfl
  | some old =>
    simp only
    have hused : arena.link? key = none := by rw [link?_eq_none_iff, hget]; rfl
    rw [link?, Array.getElem?_setIfInBounds]
    by_cases hi : i = key
    · rw [if_pos hi.symm, if_pos (lt_size_of_get? hget), hi, hused]
    · rw [if_neg (Ne.symm hi), link?]

theorem next_set (arena : Arena α) (key : Nat) (value : α) :
    (arena.set key value).next = arena.next := by
  rw [set]
  cases arena.get? key <;> rfl

theorem count_set (arena : Arena α) (key : Nat) (value : α) :
    (arena.set key value).count = arena.count := by
  rw [set]
  cases arena.get? key <;> rfl

theorem size_set (arena : Arena α) (key : Nat) (value : α) :
    (arena.set key value).slots.size = arena.slots.size := by
  rw [set]
  cases arena.get? key with
  | none => rfl
  | some old => exact Array.size_setIfInBounds

/-- Of two `set` under one key the last one counts. -/
theorem set_set (arena : Arena α) (key : Nat) (value value' : α) :
    (arena.set key value).set key value' = arena.set key value' := by
  cases hget : arena.get? key with
  | none =>
    have hnone : arena.set key value = arena := by rw [set, hget]
    rw [hnone]
  | some old =>
    have hnew : (arena.set key value).get? key = some value := by
      rw [get?_set, if_pos ⟨rfl, by rw [hget]; rfl⟩]
    rw [set, hnew]
    simp only [set, hget, Array.setIfInBounds_setIfInBounds]

/-- Two `set` under different keys may be made in either order. -/
theorem set_comm (arena : Arena α) {key key' : Nat} (h : key ≠ key') (value value' : α) :
    (arena.set key value).set key' value' = (arena.set key' value').set key value := by
  cases hget : arena.get? key with
  | none =>
    -- neither replacement brings the other key into use
    have hback : (arena.set key' value').get? key = none := by
      rw [get?_set, if_neg fun h' => h h'.1, hget]
    simp only [set, hget] at hback ⊢
    simp only [hback]
  | some old =>
    cases hget' : arena.get? key' with
    | none =>
      have hthere : (arena.set key value).get? key' = none := by
        rw [get?_set, if_neg fun h' => h h'.1.symm, hget']
      simp only [set, hget, hget'] at hthere ⊢
      simp only [hthere]
    | some old' =>
      have hthere : (arena.set key value).get? key' = some old' := by
        rw [get?_set, if_neg fun h' => h h'.1.symm, hget']
      have hback : (arena.set key' value').get? key = some old := by
        rw [get?_set, if_neg fun h' => h h'.1, hget]
      simp only [set, hget, hget'] at hthere hback ⊢
      simp only [hthere, hback, Array.setIfInBounds_comm _ _ h]

theorem slot_of_get? {key : Nat} {value : α} (h : arena.get? key = some value) :
    arena.slots[key]? = some (.occupied value) := by
  unfold get? at h
  split at h
  · next hslot =>
    rw [hslot]
    cases h
    rfl
  · cases h

theorem set_of_get? {key : Nat} {value : α} (h : arena.get? key = some value) :
    arena.set key value = arena := by
  have hslots : arena.slots.setIfInBounds key (.occupied value) = arena.slots := by
    apply Array.ext_getElem?
    intro i
    rw [Array.getElem?_setIfInBounds]
    by_cases hi : key = i
    · rw [if_pos hi, if_pos (lt_size_of_get? h), ← hi, slot_of_get? h]
    · rw [if_neg hi]
  rw [set, h]
  simp only [hslots]

/-- `erase` forgets what was `set`: only whether the key was in use matters. -/
theorem erase_set (arena : Arena α) (key : Nat) (value : α) :
    (arena.set key value).erase key = arena.erase key := by
  cases hget : arena.get? key with
  | none =>
    have hsame : arena.set key value = arena := by rw [set, hget]
    rw [hsame]
  | some old =>
    have hnew : (arena.set key value).get? key = some value := by
      rw [get?_set, if_pos ⟨rfl, by rw [hget]; rfl⟩]
    rw [erase, hnew, erase, hget]
    simp only [set, hget, Array.setIfInBounds_setIfInBounds]

theorem isSome_get?_set (arena : Arena α) (key : Nat) (value : α) (i : Nat) :
    ((arena.set key value).get? i).isSome = (arena.get? i).isSome := by
  rw [get?_set]
  by_cases hi : i = key ∧ (arena.get? key).isSome
  · rw [if_pos hi, hi.1, hi.2]
    rfl
  · rw [if_neg hi]

/-- `set` leaves the sequence as it is. -/
theorem Offers.set (h : arena.Offers order) (key : Nat) (value : α) :
    (arena.set key value).Offers order where
  head := by rw [next_set, h.head]
  link i := by rw [link?_set, h.link]
  injective := h.injective
  complete i hi := by
    have hsame := isSome_get?_set arena key value i
    rw [hi] at hsame
    exact h.complete i (by simpa using hsame.symm)

/-! ## The numbers in use

`count` is kept by hand, so that it is the number of numbers in use is an invariant. It is stated
with the set of them, which `Holds` makes unique. -/

/-- The numbers in use, which `count` counts. -/
structure Holds (arena : Arena α) (keys : Finset Nat) : Prop where
  mem_iff : ∀ key, key ∈ keys ↔ (arena.get? key).isSome
  count_eq : arena.count = keys.card

/-- Keeping a value adds the first number of the sequence, which was not among them. -/
theorem Holds.insert {keys : Finset Nat} (hk : arena.Holds keys) (h : arena.Offers order)
    (value : α) : (arena.insert value).Holds (Insert.insert (order 0) keys) where
  mem_iff key := by
    rw [Finset.mem_insert, h.get?_insert, hk.mem_iff]
    by_cases hkey : key = order 0 <;> simp [hkey]
  count_eq := by
    have hnew : order 0 ∉ keys := by
      rw [hk.mem_iff, h.get?_order 0]
      simp
    rw [(h.insert_slots value 0).2.2, Finset.card_insert_of_notMem hnew, hk.count_eq]

/-- `erase` takes the key from the set of those in use, of which it was one. -/
theorem Holds.erase {keys : Finset Nat} (hk : arena.Holds keys) {key : Nat} {value : α}
    (hkey : arena.get? key = some value) : (arena.erase key).Holds (keys.erase key) where
  mem_iff i := by
    rw [Finset.mem_erase, get?_erase hkey, hk.mem_iff]
    by_cases hi : i = key <;> simp [hi]
  count_eq := by
    have hmem : key ∈ keys := by
      rw [hk.mem_iff, hkey]
      rfl
    rw [erase_eq_of_get? hkey, Finset.card_erase_of_mem hmem, hk.count_eq]

theorem Holds.set {keys : Finset Nat} (hk : arena.Holds keys) (key : Nat) (value : α) :
    (arena.set key value).Holds keys where
  mem_iff i := by rw [hk.mem_iff, isSome_get?_set]
  count_eq := by rw [count_set, hk.count_eq]

/-! ## The empty arena

Where every run begins. -/

theorem get?_empty (key : Nat) : (empty : Arena α).get? key = none := rfl

/-- The `empty` arena offers `id`: keys are handed out from zero upwards. -/
theorem offers_empty : (empty : Arena α).Offers id where
  head := rfl
  link _ := rfl
  injective _ _ h := h
  complete key _ := ⟨key, rfl⟩

theorem holds_empty : (empty : Arena α).Holds ∅ where
  mem_iff key := by simp [get?_empty]
  count_eq := rfl

end Arena

end WasiHost
