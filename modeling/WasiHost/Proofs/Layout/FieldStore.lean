import WasiHost.Layout.Codec
import WasiHost.Proofs.Layout.Value
import WasiHost.Proofs.Memory.Reach

/-!
# Fields stored one by one

The address of a field is taken modulo the range of a word, and the range from there on is all that
an access to the field looks at. Fields that are stored one after the other come to the first one
whose range leaves the memory, and whatever was stored before that stays. If no two of the ranges
overlap, each field is found with its value afterwards, wherever the address has led.

* **`Field.Fits`**, **`LinearMemory.heldAt`** — the range of a field, and the value in it.
* **`Layout.encodeFields_eq`** — what is stored, and how the storing ends.
* **`Fitting.heldAt_putAll`** — what is found afterwards.
* **`Fitting.putAll_eq_self_iff`** — when storing changes nothing.
-/

namespace WasiHost

open Memory

namespace LinearMemory

/-- The memory with a value put into a field of the record at an address. -/
def put (linear : LinearMemory) (record : UInt32) (f : Field) (v : Value) : LinearMemory :=
  linear.write (Layout.Field.address f record) v.encode

/-- The memory with values put into fields of the record at an address, one after the other. -/
def putAll (linear : LinearMemory) (record : UInt32) (pairs : List (Field × Value)) :
    LinearMemory :=
  pairs.foldl (fun linear pair => linear.put record pair.1 pair.2) linear

/-- The value that an access to a field of the record at an address finds. -/
def heldAt (linear : LinearMemory) (record : UInt32) (f : Field) : Value :=
  Value.ofBits f.primitive
    (LittleEndian.decode
      (linear.bytes.slice (Layout.Field.address f record).toNat f.primitive.size.toNat))

variable {linear : LinearMemory} {record : UInt32} {f : Field} {v : Value}
  {pairs : List (Field × Value)}

@[simp] theorem size_put : (linear.put record f v).bytes.size = linear.bytes.size :=
  size_write _ _ _

@[simp] theorem size_putAll :
    (linear.putAll record pairs).bytes.size = linear.bytes.size := by
  induction pairs generalizing linear with
  | nil => rfl
  | cons pair rest ih => exact ih.trans size_put

end LinearMemory

/-! ## One field

An access to a field is an access to the range from `Layout.Field.address` on. `Field.Fits` says
that the range lies inside memory, `Field.Reaches` which indices it has. -/

namespace Field

/-- The indices that an access to a field of the record at an address leads to. -/
def Reaches (f : Field) (record : UInt32) (i : Nat) : Prop :=
  Spans (Layout.Field.address f record) f.primitive.size.toNat i

/-- They are all inside a memory of a size. -/
def Fits (f : Field) (record : UInt32) (size : Nat) : Prop :=
  (Layout.Field.address f record).toNat + f.primitive.size.toNat ≤ size

instance (f : Field) (record : UInt32) (size : Nat) : Decidable (f.Fits record size) :=
  inferInstanceAs (Decidable (_ ≤ _))

/-- No access to one field leads into the other. -/
def Apart (record : UInt32) (f g : Field) : Prop :=
  ∀ i, f.Reaches record i → ¬ g.Reaches record i

/-- `Access.write` refuses a field that does not fit, and leaves memory as it was. -/
theorem write_of_not_fits {linear : LinearMemory} {record : UInt32} {f : Field} {v : Value}
    (h : ¬ f.Fits record linear.bytes.size) (htype : f.primitive = v.primitive) :
    Access.write (Layout.Field.address f record) v.encode (.attached linear) =
      .error (.guest .fault) (.attached linear) := by
  have hwrite : Memory.write (.attached linear) (Layout.Field.address f record) v.encode =
      .error (.guest .fault) := by
    apply write_of_outside
    rw [v.length_encode, ← htype]
    exact Nat.lt_of_not_le h
  rw [Access.write, Access.updating, hwrite]

namespace Fits

variable {linear : LinearMemory} {record : UInt32} {f : Field} {v : Value}

theorem room (h : f.Fits record linear.bytes.size) (htype : f.primitive = v.primitive) :
    (Layout.Field.address f record).toNat + v.encode.length ≤ linear.bytes.size := by
  rw [v.length_encode, ← htype]
  exact h

/-- A field that fits is stored by `LinearMemory.put`. -/
theorem write_eq (h : f.Fits record linear.bytes.size) (htype : f.primitive = v.primitive) :
    Access.write (Layout.Field.address f record) v.encode (.attached linear) =
      .ok () (.attached (linear.put record f v)) := by
  have hlength : v.encode.length < UInt32.size := by
    rw [v.length_encode]
    exact v.primitive.size.toNat_lt
  exact Access.write_eq_ok_iff.mpr
    (Memory.write_eq_ok_iff.mpr ⟨linear, rfl, hlength, h.room htype, rfl⟩)

/-- `put` changes nothing but what an access to the field `Reaches`. -/
theorem sameOutside_put (h : f.Fits record linear.bytes.size)
    (htype : f.primitive = v.primitive) :
    SameOutside (f.Reaches record) (.attached linear) (.attached (linear.put record f v)) := by
  have hwrite := sameOutside_write (Access.write_eq_ok_iff.mp (h.write_eq htype))
  rwa [v.length_encode, ← htype] at hwrite

theorem heldAt_put (h : f.Fits record linear.bytes.size) (htype : f.primitive = v.primitive) :
    (linear.put record f v).heldAt record f = v := by
  have hslice : (linear.put record f v).bytes.slice (Layout.Field.address f record).toNat
      f.primitive.size.toNat = v.encode := by
    rw [LinearMemory.put, LinearMemory.write, htype, ← v.length_encode,
      Octets.slice_write _ (h.room htype) (Nat.le_refl _), List.take_length]
  rw [LinearMemory.heldAt, hslice, htype, v.decode_encode, v.ofBits_bits]

/-- `put` of what `heldAt` finds changes nothing. -/
theorem put_heldAt (h : f.Fits record linear.bytes.size) :
    linear.put record f (linear.heldAt record f) = linear := by
  have hencode : (linear.heldAt record f).encode =
      linear.bytes.slice (Layout.Field.address f record).toNat f.primitive.size.toNat :=
    Value.encode_ofBits_decode (Octets.length_slice _ _ _)
  rw [LinearMemory.put, LinearMemory.write, hencode, Octets.write_slice _ h]

end Fits

end Field

/-! ## Several fields

`Layout.encodeFields` stores one field after the other, and stops at the first that does not fit.
What it has stored by then is `storedPart`. -/

namespace Layout

variable {linear : LinearMemory} {record : UInt32} {pairs : List (Field × Value)}

/-- The fields, with their values, before the first one that does not fit. -/
def storedPart (record : UInt32) (size : Nat) (pairs : List (Field × Value)) :
    List (Field × Value) :=
  pairs.takeWhile fun pair => pair.1.Fits record size

/-- `encodeFields` stores fields that all fit. Otherwise the first that does not is refused, and
those in `storedPart`, before it, stay stored. By induction on `pairs`, for every memory. -/
theorem encodeFields_eq (htypes : ∀ pair ∈ pairs, pair.1.primitive = pair.2.primitive) :
    encodeFields record pairs (.attached linear) =
      if ∀ pair ∈ pairs, pair.1.Fits record linear.bytes.size then
        .ok () (.attached (linear.putAll record pairs))
      else
        .error (.memory (.guest .fault))
          (.attached (linear.putAll record (storedPart record linear.bytes.size pairs))) := by
  induction pairs generalizing linear with
  | nil => simp [encodeFields, LinearMemory.putAll, pure, EStateM.pure]
  | cons pair rest ih =>
    obtain ⟨htype, hrest⟩ := List.forall_mem_cons.mp htypes
    by_cases hfits : pair.1.Fits record linear.bytes.size
    · have hwrite : EStateM.adaptExcept LayoutError.memory
          (Access.write (Field.address pair.1 record) pair.2.encode) (.attached linear) =
            .ok () (.attached (linear.put record pair.1 pair.2)) := by
        rw [EStateM.adaptExcept, hfits.write_eq htype]
      -- the memory keeps its size, so the same fields fit as before
      rw [encodeFields, bind_of_ok hwrite, ih hrest, LinearMemory.size_put, storedPart, storedPart,
        List.takeWhile_cons_of_pos (by simpa using hfits)]
      simp only [List.forall_mem_cons, hfits, true_and]
      rfl
    · -- the first field does not fit, so nothing is stored
      have hwrite : EStateM.adaptExcept LayoutError.memory
          (Access.write (Field.address pair.1 record) pair.2.encode) (.attached linear) =
            .error (.memory (.guest .fault)) (.attached linear) := by
        rw [EStateM.adaptExcept, Field.write_of_not_fits hfits htype]
      rw [encodeFields, bind_of_error hwrite, storedPart,
        List.takeWhile_cons_of_neg (by simpa using hfits)]
      simp only [List.forall_mem_cons, hfits, false_and, if_false]
      rfl

end Layout

/-- A field that fits, and a value of its type. -/
structure Fitting (record : UInt32) (size : Nat) (pair : Field × Value) : Prop where
  fits : pair.1.Fits record size
  type_eq : pair.1.primitive = pair.2.primitive

namespace Fitting

variable {linear : LinearMemory} {record : UInt32} {pairs : List (Field × Value)}

/-- What fits goes on fitting, because `LinearMemory.put` keeps the size. -/
theorem after_put {pair : Field × Value} (f : Field) (v : Value)
    (h : Fitting record linear.bytes.size pair) :
    Fitting record (linear.put record f v).bytes.size pair := by
  rwa [LinearMemory.size_put]

/-- `putAll` changes nothing but what accesses to the fields reach. -/
theorem sameOutside_putAll (h : ∀ pair ∈ pairs, Fitting record linear.bytes.size pair) :
    SameOutside (fun i => ∃ pair ∈ pairs, pair.1.Reaches record i) (.attached linear)
      (.attached (linear.putAll record pairs)) := by
  induction pairs generalizing linear with
  | nil => exact .refl _ _
  | cons pair rest ih =>
    obtain ⟨hpair, hrest⟩ := List.forall_mem_cons.mp h
    -- the first field and the later ones change what each of them leads to
    have hfirst := hpair.fits.sameOutside_put hpair.type_eq
    have hlater := ih fun other hother => (hrest other hother).after_put pair.1 pair.2
    refine .trans (hfirst.mono fun i hi => ⟨pair, List.mem_cons_self, hi⟩)
      (hlater.mono fun i hi => ?_)
    obtain ⟨other, hother, hi⟩ := hi
    exact ⟨other, List.mem_cons_of_mem _ hother, hi⟩

/-- What accesses to the stored fields do not lead into is found as it was, by
`sameOutside_putAll`. -/
theorem heldAt_putAll_of_apart {f : Field}
    (h : ∀ pair ∈ pairs, Fitting record linear.bytes.size pair)
    (hapart : ∀ pair ∈ pairs, f.Apart record pair.1) :
    (linear.putAll record pairs).heldAt record f = linear.heldAt record f := by
  rw [LinearMemory.heldAt, LinearMemory.heldAt, (sameOutside_putAll h).slice_eq]
  rintro i hlo hhi ⟨pair, hpair, hreaches⟩
  exact hapart pair hpair i ⟨hlo, hhi⟩ hreaches

/-- Fields that are `Field.Apart` are found with the values that were stored in them. -/
theorem heldAt_putAll (h : ∀ pair ∈ pairs, Fitting record linear.bytes.size pair)
    (hapart : (pairs.map Prod.fst).Pairwise (Field.Apart record)) :
    ∀ pair ∈ pairs, (linear.putAll record pairs).heldAt record pair.1 = pair.2 := by
  induction pairs generalizing linear with
  | nil => nofun
  | cons pair rest ih =>
    obtain ⟨hpair, hrest⟩ := List.forall_mem_cons.mp h
    obtain ⟨hfirst, hapart⟩ := List.pairwise_cons.mp hapart
    have hlater : ∀ other ∈ rest,
        Fitting record (linear.put record pair.1 pair.2).bytes.size other :=
      fun other hother => (hrest other hother).after_put pair.1 pair.2
    refine List.forall_mem_cons.mpr ⟨?_, ih hlater hapart⟩
    -- what is stored later leaves the first field alone
    have hkept := heldAt_putAll_of_apart hlater fun other hother =>
      hfirst other.1 (List.mem_map_of_mem hother)
    exact hkept.trans (hpair.fits.heldAt_put hpair.type_eq)

/-- Storing what every `LinearMemory.heldAt` finds changes nothing. -/
theorem putAll_eq_self (hfits : ∀ pair ∈ pairs, pair.1.Fits record linear.bytes.size)
    (hheld : ∀ pair ∈ pairs, linear.heldAt record pair.1 = pair.2) :
    linear.putAll record pairs = linear := by
  induction pairs with
  | nil => rfl
  | cons pair rest ih =>
    obtain ⟨hpair, hrest⟩ := List.forall_mem_cons.mp hfits
    obtain ⟨hfirst, hheld⟩ := List.forall_mem_cons.mp hheld
    -- the first field holds its value, so the others are stored into the same memory
    have hput : linear.put record pair.1 pair.2 = linear := by
      rw [← hfirst]
      exact hpair.put_heldAt
    rw [LinearMemory.putAll, List.foldl_cons, hput]
    exact ih hrest hheld

/-- If the fields are `Apart`, `putAll` changes nothing only if every field held its value. -/
theorem putAll_eq_self_iff (h : ∀ pair ∈ pairs, Fitting record linear.bytes.size pair)
    (hapart : (pairs.map Prod.fst).Pairwise (Field.Apart record)) :
    linear.putAll record pairs = linear ↔
      ∀ pair ∈ pairs, linear.heldAt record pair.1 = pair.2 := by
  refine ⟨fun heq pair hpair => ?_, putAll_eq_self fun pair hpair => (h pair hpair).fits⟩
  have hheld := heldAt_putAll h hapart pair hpair
  rwa [heq] at hheld

end Fitting

end WasiHost
