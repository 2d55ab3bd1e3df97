import WasiHost.Proofs.Layout.RoundTrip

/-!
# Where the access to a field leads

The address of a field is the sum of two words, taken modulo the range of a word, and only then is
the range of the field checked. So the access is one to the exact sum as long as the sum is a word.
Beyond that it leads to the start of memory, and is refused only if the field does not fit there
either. To decode the record, its whole range is checked in exact integers, which refuses any record
that reaches beyond the last address.

* **`Layout.AccessedAt`** — a field is read and written in a place, and refused if that is outside.
* **`Layout.accessedAt_address`** — the place that the access leads to.
* **`Layout.accessedAt_exact_iff`** — when this is the exact sum.
-/

namespace WasiHost

namespace Layout

open Memory

variable {layout : Layout} {linear : LinearMemory} {record : UInt32} {name : String} {f : Field}

/-- Reading and writing the field of a name are accesses to the range that begins at `start`:
outside memory they fault and change nothing, inside they read and write its octets. -/
structure AccessedAt (layout : Layout) (linear : LinearMemory) (record : UInt32) (name : String)
    (f : Field) (start : Nat) : Prop where
  readFaults : linear.bytes.size < start + f.primitive.size.toNat →
    layout.readField (.attached linear) record name = .error (.memory (.guest .fault))
  writeFaults : linear.bytes.size < start + f.primitive.size.toNat →
    ∀ v : Value, f.primitive = v.primitive →
      layout.writeField record name v (.attached linear) =
        .error (.memory (.guest .fault)) (.attached linear)
  reads : start + f.primitive.size.toNat ≤ linear.bytes.size →
    layout.readField (.attached linear) record name =
      .ok (Value.ofBits f.primitive
        (LittleEndian.decode (linear.bytes.slice start f.primitive.size.toNat)))
  writes : start + f.primitive.size.toNat ≤ linear.bytes.size →
    ∀ v : Value, f.primitive = v.primitive →
      layout.writeField record name v (.attached linear) =
        .ok () (.attached { linear with bytes := linear.bytes.write start v.encode })

/-- `Field.address` adds modulo the range of a word. -/
theorem toNat_address (f : Field) (record : UInt32) :
    (Field.address f record).toNat = (record.toNat + f.offset.toNat) % UInt32.size :=
  UInt32.toNat_add _ _

/-- Once `Layout.field` and `checkType` have let it pass, `Layout.writeField` is a write of the
octets. -/
theorem writeField_eq_write (hfield : layout.field name = .ok f) {v : Value}
    (htype : f.primitive = v.primitive) :
    layout.writeField record name v =
      EStateM.adaptExcept LayoutError.memory (Access.write (Field.address f record) v.encode) := by
  simp only [writeField, hfield, checkType, if_pos htype]

/-- The range that is checked and accessed begins at `Field.address`. -/
theorem accessedAt_address (hfield : layout.field name = .ok f) :
    AccessedAt layout linear record name f (Field.address f record).toNat where
  readFaults hout := by
    -- both look at the range that begins at the wrapped address, and nothing else
    have hslice : Memory.slice (.attached linear) (Field.address f record) f.primitive.size =
        .error (.guest .fault) :=
      slice_of_outside (Nat.not_le_of_lt hout)
    simp only [readField, hfield, hslice]
  writeFaults hout v htype := by
    simp only [writeField_eq_write hfield htype, EStateM.adaptExcept,
      Field.write_of_not_fits (Nat.not_le_of_lt hout) htype]
  reads hin := by
    have hslice : Memory.slice (.attached linear) (Field.address f record) f.primitive.size =
        .ok (linear.bytes.slice (Field.address f record).toNat f.primitive.size.toNat) :=
      slice_eq_ok_iff.mpr ⟨linear, rfl, hin, rfl⟩
    simp only [readField, hfield, hslice]
    exact decodeValue_eq (Octets.length_slice _ _ _)
  writes hin v htype := by
    simp only [writeField_eq_write hfield htype, EStateM.adaptExcept, Field.Fits.write_eq hin htype]
    rfl

/-- A field is accessed modulo the range of a word. By `AccessedAt` that is where it stands exactly
if the sum of the address and the offset is a word, or if the field does not even fit where the
access leads instead. -/
theorem accessedAt_exact_iff (hfield : layout.field name = .ok f)
    (hsize : linear.bytes.size ≤ UInt32.size) :
    AccessedAt layout linear record name f ((record.toNat + f.offset.toNat) % UInt32.size) ∧
      (AccessedAt layout linear record name f (record.toNat + f.offset.toNat) ↔
        record.toNat + f.offset.toNat < UInt32.size ∨
          linear.bytes.size <
            (record.toNat + f.offset.toNat) % UInt32.size + f.primitive.size.toNat) := by
  have hled : AccessedAt layout linear record name f
      ((record.toNat + f.offset.toNat) % UInt32.size) := by
    rw [← toNat_address]
    exact accessedAt_address hfield
  have hpos := f.primitive.size_pos
  have hmod := Nat.mod_le (record.toNat + f.offset.toNat) UInt32.size
  refine ⟨hled, fun hexact => ?_, ?_⟩
  · by_contra hneither
    obtain ⟨hsum, hfits⟩ := not_or.mp hneither
    -- no memory reaches up to the exact sum, yet a value is read
    have hfault := hexact.readFaults (by omega)
    cases hfault.symm.trans (hled.reads (by omega))
  · rintro (hsum | hout)
    · -- the sum is a word, so nothing is taken off it
      rwa [Nat.mod_eq_of_lt hsum] at hled
    · -- both places refuse the field
      exact
        { readFaults := fun _ => hled.readFaults hout
          writeFaults := fun _ => hled.writeFaults hout
          reads := fun hin => absurd hin (by omega)
          writes := fun hin => absurd hin (by omega) }

/-- `name_len` of a `prestat` that ends where memory does. -/
theorem accessedAt_last :
    AccessedAt RecordKind.prestat.layout (.zeros 16) 8 "name_len" ⟨"name_len", .u32, 4⟩ 12 :=
  (accessedAt_exact_iff (by rfl) (by decide)).2.mpr (.inl (by decide))

/-- `name_len` of a `prestat` at 4294967292 is read from the start of memory, where `decode` refuses
the record as a whole. -/
theorem not_accessedAt_exact :
    RecordKind.prestat.layout.field "name_len" = .ok ⟨"name_len", .u32, 4⟩ ∧
      RecordKind.prestat.layout.decode (.attached (.zeros 16)) 4294967292 =
        .error (.memory (.guest .fault)) ∧
      ¬ AccessedAt RecordKind.prestat.layout (.zeros 16) 4294967292 "name_len"
        ⟨"name_len", .u32, 4⟩ (4294967292 + 4) := by
  have hfield : RecordKind.prestat.layout.field "name_len" = .ok ⟨"name_len", .u32, 4⟩ := by rfl
  refine ⟨hfield, by rfl, fun hexact => ?_⟩
  have hfault := hexact.readFaults (by decide)
  have hled : AccessedAt RecordKind.prestat.layout (.zeros 16) 4294967292 "name_len"
      ⟨"name_len", .u32, 4⟩ 0 :=
    accessedAt_address hfield
  cases hfault.symm.trans (hled.reads (by decide))

end Layout

end WasiHost
