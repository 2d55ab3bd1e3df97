import Std.Data.ExtTreeMap
import WasiHost.Abi.LittleEndian

/-!
# Long strings of octets

A memory may be four gigabytes long, nearly all of it zero. So a string of octets is held here by
its size and by those of its octets that are not zero. Zeros are never held, hence strings with the
same octets are equal (`Octets.ext`).

Main statements: a write keeps the size (`Octets.size_write`) and says octet by octet what is there
afterwards (`Octets.getElem?_write`).
-/

namespace WasiHost

/-- A string of octets, by its size and its octets that are not zero. -/
structure Octets where
  size : Nat
  /-- The octets that are not zero, by index. -/
  cells : Std.ExtTreeMap Nat UInt8
  lt_size : ∀ i : Nat, cells[i]? ≠ none → i < size
  ne_zero : ∀ i : Nat, cells[i]? ≠ some 0

namespace Octets

/-- The octet at an index inside, and zero outside. -/
def octetAt (octets : Octets) (i : Nat) : UInt8 :=
  octets.cells.getD i 0

instance : GetElem? Octets Nat UInt8 fun octets i => i < octets.size where
  getElem octets i _ := octets.octetAt i
  getElem? octets i := if i < octets.size then some (octets.octetAt i) else none

instance : LawfulGetElem Octets Nat UInt8 fun octets i => i < octets.size where
  getElem?_def octets i _ := by
    by_cases h : i < octets.size <;> simp [getElem?, getElem, h]

theorem getElem?_eq (octets : Octets) (i : Nat) :
    octets[i]? = if i < octets.size then some (octets.octetAt i) else none := rfl

theorem getElem_eq (octets : Octets) (i : Nat) (h : i < octets.size) :
    octets[i] = octets.octetAt i := rfl

theorem octetAt_eq (octets : Octets) (i : Nat) :
    octets.octetAt i = (octets.cells[i]?).getD 0 :=
  Std.ExtTreeMap.getD_eq_getD_getElem?

/-- The cell of an index holds the octet there unless that is zero. -/
theorem cells_getElem? (octets : Octets) (i : Nat) :
    octets.cells[i]? = if octets.octetAt i = 0 then none else some (octets.octetAt i) := by
  have := octets.ne_zero i
  rw [octetAt_eq]
  cases h : octets.cells[i]? with
  | none => simp
  | some b =>
    rw [h] at this
    rw [Option.getD_some, if_neg fun hb => this (by rw [hb])]

theorem octetAt_eq_zero (octets : Octets) {i : Nat} (h : octets.size ≤ i) :
    octets.octetAt i = 0 := by
  rw [octetAt_eq]
  cases hc : octets.cells[i]? with
  | none => rfl
  | some b => exact absurd (octets.lt_size i (by simp [hc])) (by omega)

/-- There is no octet from the size on. -/
theorem getElem?_eq_none_iff {octets : Octets} {i : Nat} : octets[i]? = none ↔ octets.size ≤ i := by
  simp [getElem?_eq]

/-- Strings of one size with the same octets are equal. -/
theorem ext {a b : Octets} (size : a.size = b.size) (octets : ∀ i, a.octetAt i = b.octetAt i) :
    a = b := by
  have cells : a.cells = b.cells :=
    Std.ExtTreeMap.ext_getElem? fun i => by rw [cells_getElem?, cells_getElem?, octets]
  cases a
  cases b
  cases size
  cases cells
  rfl

/-- Strings with the same octets at the same indices are equal. -/
theorem ext_getElem? {a b : Octets} (h : ∀ i : Nat, a[i]? = b[i]?) : a = b := by
  have size : a.size = b.size :=
    Nat.le_antisymm
      (getElem?_eq_none_iff.1 ((h b.size).trans (getElem?_eq_none_iff.2 (Nat.le_refl _))))
      (getElem?_eq_none_iff.1 ((h a.size).symm.trans (getElem?_eq_none_iff.2 (Nat.le_refl _))))
  refine ext size fun i => ?_
  by_cases hi : i < a.size
  · have := h i
    rwa [getElem?_eq, getElem?_eq, if_pos hi, if_pos (size ▸ hi), Option.some.injEq] at this
  · rw [octetAt_eq_zero a (by omega), octetAt_eq_zero b (by omega)]

instance : DecidableEq Octets := fun a b =>
  if h : a.size = b.size ∧ a.cells = b.cells then
    isTrue (ext h.1 fun i => by rw [octetAt_eq, octetAt_eq, h.2])
  else isFalse fun eq => h (by rw [eq]; exact ⟨rfl, rfl⟩)

/-! ## Reading and writing -/

/-- A string of zeros. -/
def zeros (size : Nat) : Octets where
  size := size
  cells := ∅
  lt_size := by simp
  ne_zero := by simp

instance : Inhabited Octets := ⟨zeros 0⟩

/-- The string with zeros added at its end. -/
def grow (octets : Octets) (more : Nat) : Octets :=
  { octets with
    size := octets.size + more
    lt_size := fun i h => Nat.lt_add_right more (octets.lt_size i h) }

/-- Puts an octet at an index; outside, nothing changes. -/
def set (octets : Octets) (i : Nat) (octet : UInt8) : Octets :=
  if inside : i < octets.size then
    if nonzero : octet = 0 then
      { octets with
        cells := octets.cells.erase i
        lt_size := fun j h => octets.lt_size j fun none => by
          simp [Std.ExtTreeMap.getElem?_erase, none] at h
        ne_zero := fun j => by
          rw [Std.ExtTreeMap.getElem?_erase]
          split
          · simp
          · exact octets.ne_zero j }
    else
      { octets with
        cells := octets.cells.insert i octet
        lt_size := fun j h => by
          by_cases same : i = j
          · exact same ▸ inside
          · refine octets.lt_size j fun none => ?_
            simp [Std.ExtTreeMap.getElem?_insert, none, same] at h
        ne_zero := fun j => by
          rw [Std.ExtTreeMap.getElem?_insert]
          split
          · simpa using nonzero
          · exact octets.ne_zero j }
  else octets

/-- Puts octets one by one from an index on; what would lie outside is dropped. -/
def write (octets : Octets) (start : Nat) : Bytes → Octets
  | [] => octets
  | b :: rest => (octets.set start b).write (start + 1) rest

/-- The octets from an index on, with zeros for those outside. -/
def slice (octets : Octets) (start length : Nat) : Bytes :=
  (List.range' start length).map octets.octetAt

/-- The string of octets in a list. -/
def ofList (data : Bytes) : Octets :=
  (zeros data.length).write 0 data

/-- All the octets. -/
def toList (octets : Octets) : Bytes :=
  octets.slice 0 octets.size

/-! ## What is there afterwards -/

@[simp] theorem size_zeros (size : Nat) : (zeros size).size = size := rfl

@[simp] theorem octetAt_zeros (size i : Nat) : (zeros size).octetAt i = 0 := by
  simp [octetAt_eq, zeros]

@[simp] theorem size_grow (octets : Octets) (more : Nat) :
    (octets.grow more).size = octets.size + more := rfl

@[simp] theorem octetAt_grow (octets : Octets) (more i : Nat) :
    (octets.grow more).octetAt i = octets.octetAt i := rfl

@[simp] theorem size_set (octets : Octets) (i : Nat) (octet : UInt8) :
    (octets.set i octet).size = octets.size := by
  unfold set
  split
  · split <;> rfl
  · rfl

theorem octetAt_set (octets : Octets) (i : Nat) (octet : UInt8) (j : Nat) :
    (octets.set i octet).octetAt j =
      if i = j ∧ i < octets.size then octet else octets.octetAt j := by
  unfold set
  by_cases inside : i < octets.size
  · rw [dif_pos inside]
    by_cases same : i = j
    · rw [if_pos ⟨same, inside⟩]
      split <;> simp [octetAt_eq, *]
    · rw [if_neg fun h => same h.1]
      split <;>
        simp [octetAt_eq, Std.ExtTreeMap.getElem?_erase, Std.ExtTreeMap.getElem?_insert, same]
  · rw [dif_neg inside, if_neg fun h => inside h.2]

@[simp] theorem size_write (octets : Octets) (start : Nat) (data : Bytes) :
    (octets.write start data).size = octets.size := by
  induction data generalizing octets start with
  | nil => rfl
  | cons b rest ih => simp [write, ih]

/-- After a write, an index inside the range holds the octet written there and any other index what
it held before. -/
theorem getElem?_write (octets : Octets) (start : Nat) (data : Bytes) (i : Nat)
    (h : start + data.length ≤ octets.size) :
    (octets.write start data)[i]? =
      if start ≤ i ∧ i < start + data.length then data[i - start]? else octets[i]? := by
  induction data generalizing octets start with
  | nil => simp [write, show ¬ (start ≤ i ∧ i < start) by omega]
  | cons b rest ih =>
    simp only [List.length_cons] at h
    rw [write, ih _ _ (by simp; omega)]
    simp only [List.length_cons]
    by_cases hi : i = start
    · subst hi
      have : ¬ (i + 1 ≤ i ∧ i < i + 1 + rest.length) := by omega
      rw [if_neg this, if_pos (by omega)]
      simp [getElem_eq, octetAt_set, show i < octets.size by omega]
    · by_cases hr : start + 1 ≤ i ∧ i < start + 1 + rest.length
      · rw [if_pos hr, if_pos (by omega), show i - start = (i - (start + 1)) + 1 by omega,
          List.getElem?_cons_succ]
      · rw [if_neg hr, if_neg (by omega)]
        simp [getElem?_eq, octetAt_set, show ¬ (start = i) by omega]

@[simp] theorem length_slice (octets : Octets) (start length : Nat) :
    (octets.slice start length).length = length := by
  simp [slice]

/-- An octet of a range that lies inside is the one at its index. -/
theorem getElem?_slice (octets : Octets) (start length i : Nat) (h : start + length ≤ octets.size) :
    (octets.slice start length)[i]? = if i < length then octets[start + i]? else none := by
  by_cases hi : i < length
  · simp [slice, getElem_eq, hi, show start + i < octets.size by omega]
  · simp [slice, hi]

/-- A string made of a list has the octets of the list. -/
theorem getElem?_ofList (data : Bytes) (i : Nat) : (ofList data)[i]? = data[i]? := by
  rw [ofList, getElem?_write _ _ _ _ (by simp)]
  by_cases hi : i < data.length
  · simp [hi]
  · simp [hi]

end Octets

end WasiHost
