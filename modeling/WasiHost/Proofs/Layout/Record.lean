import WasiHost.Proofs.Layout.RoundTrip

/-!
# Typed records and the layouts of their fields

The octets of a record of the interface are described twice: by hand, as a concatenation with
padding written out, and by the layout that is computed from the list of its fields. The two
descriptions are of one format. The hand-written form of a record is what its values are encoded to
over zeros, and octets are read as a record exactly if their fields hold the values of one.

* **`Layout.clearPadding`** — octets with zeros wherever there is no field.
* **`Layout.Inside.slice_putAll`** — what values are encoded to over zeros.
* **`RecordFormat.Lawful`** — what has to be known of each record by itself.
* **`RecordFormat.Agrees`** — the agreement that follows.
* **`records_agree`** — the three records of the interface agree with their layouts, and a buffer
  has nothing but its two words.
-/

namespace WasiHost

open Memory

/-! ## Octets without padding

Packed records have zeros in their padding, and encoding leaves the padding as it is. `clearPadding`
takes the difference out, so that octets can be compared as a whole. -/

namespace Field

variable {f : Field} {bytes : Bytes} {v : Value}

instance (f : Field) (record : UInt32) (i : Nat) : Decidable (f.Covers record i) :=
  inferInstanceAs (Decidable (_ ∧ _))

/-- `Covers` is relative to the address of the record. -/
theorem covers_add_iff (record : UInt32) (i : Nat) :
    f.Covers record (record.toNat + i) ↔ f.Covers 0 i := by
  have hzero : (0 : UInt32).toNat = 0 := rfl
  unfold Covers
  omega

/-- `valueIn` is `v` if the octets that `Field.cut` takes out are `v.encode`. -/
theorem valueIn_eq (htype : f.primitive = v.primitive)
    (hcut : Layout.Field.cut f bytes = v.encode) :
    f.valueIn bytes = v := by
  rw [valueIn, hcut, v.decode_encode, htype, v.ofBits_bits]

/-- If a field holds in memory what it holds in `bytes` then its octets are the same. -/
theorem octetAt_eq_of_valueAt_eq {linear : LinearMemory} {record : UInt32} {i : Nat}
    (hend : f.offset.toNat + f.primitive.size.toNat ≤ bytes.length)
    (hvalue : linear.valueAt record f = f.valueIn bytes) (hi : f.Covers 0 i)
    (hlength : i < bytes.length) : linear.bytes.octetAt (record.toNat + i) = bytes[i] := by
  have hslice : linear.bytes.slice (record.toNat + f.offset.toNat) f.primitive.size.toNat =
      Layout.Field.cut f bytes := by
    have hencode := congrArg Value.encode hvalue
    rwa [LinearMemory.valueAt, Value.encode_ofBits_decode (Octets.length_slice _ _ _), valueIn,
      Value.encode_ofBits_decode (Layout.length_cut hend)] at hencode
  have hzero : (0 : UInt32).toNat = 0 := rfl
  obtain ⟨hlo, hhi⟩ := hi
  -- the octet is the one at `k` in the field
  obtain ⟨k, rfl⟩ := Nat.exists_eq_add_of_le (show f.offset.toNat ≤ i by omega)
  have hk : k < f.primitive.size.toNat := by omega
  have hget := congrArg (·[k]?) hslice
  simpa [Octets.slice, Layout.Field.cut, hk, hlength, Nat.add_assoc] using hget

end Field

namespace Layout

variable {layout : Layout} {linear : LinearMemory} {record : UInt32} {bytes : Bytes}
  {values : List Value}

/-- The octets of a record with zeros wherever there is no field. -/
def clearPadding (layout : Layout) (bytes : Bytes) : Bytes :=
  bytes.mapIdx fun i octet => if ∃ f ∈ layout.fields, f.Covers 0 i then octet else 0

@[simp] theorem length_clearPadding : (layout.clearPadding bytes).length = bytes.length := by
  simp [clearPadding]

/-- `clearPadding` leaves octets that are zero wherever there is no field. -/
theorem clearPadding_eq_self
    (h : ∀ i (hi : i < bytes.length), (∃ f ∈ layout.fields, f.Covers 0 i) ∨ bytes[i] = 0) :
    layout.clearPadding bytes = bytes := by
  refine List.ext_getElem length_clearPadding fun i hi hi' => ?_
  simp only [clearPadding, List.getElem_mapIdx]
  split
  · rfl
  · next hpadding => exact ((h i hi').resolve_left hpadding).symm

/-- `valueIn` of all fields, if `Field.cut` takes the encodings of `values` out. -/
theorem map_valueIn_eq {fields : List Field} (hmatch : Matches fields values)
    (hcut : (fields.map fun f => Field.cut f bytes) = values.map Value.encode) :
    (fields.map fun f => f.valueIn bytes) = values := by
  induction fields generalizing values with
  | nil =>
    cases values with
    | nil => rfl
    | cons v values => cases hmatch
  | cons f fields ih =>
    cases values with
    | nil => cases hmatch
    | cons v values =>
      obtain ⟨htype, hmatch⟩ := List.cons.inj hmatch
      obtain ⟨hfirst, hcut⟩ := List.cons.inj hcut
      rw [List.map_cons, Field.valueIn_eq htype.symm hfirst, ih hmatch hcut]

/-- `decodeBytes` gives `values` exactly if the length is right and `valueIn` of the fields is
`values`. -/
theorem decodeBytes_eq_ok_iff (h : layout.Orderly) :
    layout.decodeBytes bytes = .ok values ↔
      bytes.length = layout.size.toNat ∧ (layout.fields.map fun f => f.valueIn bytes) = values := by
  by_cases hlength : bytes.length = layout.size.toNat
  · rw [decodeBytes_eq h hlength]
    simp [hlength]
  · simp [decodeBytes, hlength]

/-- `putAll` over zeros gives the octets that the values were decoded from, without their
padding. -/
theorem Inside.slice_putAll (h : layout.Inside record linear)
    (hzero : ∀ i < layout.size.toNat, linear.bytes.octetAt (record.toNat + i) = 0)
    (hlength : bytes.length = layout.size.toNat)
    (hvalues : (layout.fields.map fun f => f.valueIn bytes) = values) :
    (linear.putAll record (layout.fields.zip values)).bytes.slice record.toNat layout.size.toNat =
      layout.clearPadding bytes := by
  have hmatch : Matches layout.fields values := by
    subst hvalues
    simp [Matches, Field.valueIn]
  have hfields := List.map_eq_map_iff.mp ((h.map_valueAt_putAll hmatch).trans hvalues.symm)
  refine List.ext_getElem (by simp [hlength]) fun i hi _ => ?_
  rw [Octets.length_slice] at hi
  simp only [clearPadding, List.getElem_mapIdx, Octets.slice, List.getElem_map,
    List.getElem_range', Nat.one_mul]
  split
  · next hfield =>
    obtain ⟨f, hf, hcovers⟩ := hfield
    have hend := h.orderly.end_le f hf
    exact Field.octetAt_eq_of_valueAt_eq (by omega) (hfields f hf) hcovers (by omega)
  · next hpadding =>
    -- no field was stored here
    have houtside := Storable.sameOutside_putAll (h.storable hmatch)
    cases houtside with
    | attached _ _ octets =>
      rw [octets, hzero i hi]
      rintro ⟨pair, hpair, hcovers⟩
      rw [Field.covers_add_iff] at hcovers
      exact hpadding ⟨pair.1, (List.of_mem_zip hpair).1, hcovers⟩

end Layout

/-! ## Words and enumerations in octets

Octets are read as words by `wordAt`, and a word as an enumeration by `FileType.ofNumber?` and
`PreopenType.ofNumber?`, which refuse what is no number of it. -/

theorem wordAt_lt (bytes : Bytes) (offset width : Nat) :
    wordAt bytes offset width < Nat.pow 256 width := by
  have hlength : ((bytes.drop offset).take width).length ≤ width := by
    rw [List.length_take]
    exact Nat.min_le_left _ _
  exact Nat.lt_of_lt_of_le (LittleEndian.decode_lt _) (Nat.pow_le_pow_right (by decide) hlength)

/-- `LittleEndian.encode` of what `wordAt` reads is the octets it came from. -/
theorem encode_wordAt {bytes : Bytes} {offset width : Nat} (h : offset + width ≤ bytes.length) :
    LittleEndian.encode width (wordAt bytes offset width) = (bytes.drop offset).take width := by
  have hlength : ((bytes.drop offset).take width).length = width := by
    rw [List.length_take, List.length_drop]
    omega
  have hencode := LittleEndian.encode_decode ((bytes.drop offset).take width)
  rwa [hlength] at hencode

namespace FileType

/-- The numbers of `FileType.all` are the ones that `FileType.ofNumber?` takes. -/
theorem mem_numbers_iff {n : Nat} :
    n ∈ all.map (fun t => t.number.toNat) ↔ ∃ t, ofNumber? n = some t := by
  have hall : ∀ t, t ∈ all := by
    intro t
    cases t <;> decide
  simp only [List.mem_map, hall, true_and, ofNumber?_eq_some_iff]
  simp only [eq_comm]

theorem ofNat_eq_number_iff {n : Nat} {t : FileType} (h : n < 256) :
    UInt8.ofNat n = t.number ↔ ofNumber? n = some t := by
  rw [ofNumber?_eq_some_iff, ← UInt8.toNat_inj, UInt8.toNat_ofNat_of_lt' h]

/-- `ofNumber?` where the number of a file type is stored in eight octets. -/
theorem ofNat_eq_wide_number_iff {n : Nat} {t : FileType} (h : n < UInt64.size) :
    UInt64.ofNat n = t.number.toUInt64 ↔ ofNumber? n = some t := by
  rw [ofNumber?_eq_some_iff, ← UInt64.toNat_inj, UInt64.toNat_ofNat_of_lt' h, UInt8.toNat_toUInt64]

end FileType

namespace PreopenType

theorem ofNumber?_eq_some_iff {n : Nat} {t : PreopenType} :
    ofNumber? n = some t ↔ n = t.number.toNat := by
  cases t
  simp [ofNumber?, number]

theorem ofNat_eq_number_iff {n : Nat} {t : PreopenType} (h : n < 256) :
    UInt8.ofNat n = t.number ↔ ofNumber? n = some t := by
  rw [ofNumber?_eq_some_iff, ← UInt8.toNat_inj, UInt8.toNat_ofNat_of_lt' h]

end PreopenType

/-! ## The records one by one

For each record its length, its `values`, and what it takes to be read. -/

namespace Prestat

theorem length_pack (r : Prestat) : r.pack.length = 8 := by
  simp [pack, padding]

/-- The fields of the record, as they are declared. -/
def values (r : Prestat) : List Value :=
  [.u8 r.tag.number, .u32 r.nameLen]

theorem unpack_eq_ok_iff {bytes : Bytes} {r : Prestat} :
    unpack bytes = .ok r ↔ bytes.length = size.toNat ∧
      PreopenType.ofNumber? (wordAt bytes 0 1) = some r.tag ∧
      UInt32.ofNat (wordAt bytes 4 4) = r.nameLen := by
  obtain ⟨tag, nameLen⟩ := r
  unfold unpack
  by_cases hlength : bytes.length = size.toNat
  · cases PreopenType.ofNumber? (wordAt bytes 0 1) <;> simp [hlength]
  · simp [hlength]

end Prestat

namespace FdStat

theorem length_pack (r : FdStat) : r.pack.length = 24 := by
  simp [pack, padding]

/-- The fields of the record, as they are declared. -/
def values (r : FdStat) : List Value :=
  [.u8 r.fileType.number, .u16 r.flags, .u64 r.rightsBase, .u64 r.rightsInheriting]

theorem unpack_eq_ok_iff {bytes : Bytes} {r : FdStat} :
    unpack bytes = .ok r ↔ bytes.length = size.toNat ∧
      FileType.ofNumber? (wordAt bytes 0 1) = some r.fileType ∧
      UInt16.ofNat (wordAt bytes 2 2) = r.flags ∧
      UInt64.ofNat (wordAt bytes 8 8) = r.rightsBase ∧
      UInt64.ofNat (wordAt bytes 16 8) = r.rightsInheriting := by
  obtain ⟨fileType, flags, rightsBase, rightsInheriting⟩ := r
  unfold unpack
  by_cases hlength : bytes.length = size.toNat
  · cases FileType.ofNumber? (wordAt bytes 0 1) <;> simp [hlength]
  · simp [hlength]

end FdStat

namespace FileStat

theorem length_pack (r : FileStat) : r.pack.length = 64 := by
  simp [pack]

/-- The fields of the record, as they are declared. -/
def values (r : FileStat) : List Value :=
  [.u64 r.device, .u64 r.inode, .u64 r.fileType.number.toUInt64, .u64 r.numLinks, .u64 r.fileSize,
    .u64 r.atime, .u64 r.mtime, .u64 r.ctime]

theorem unpack_eq_ok_iff {bytes : Bytes} {r : FileStat} :
    unpack bytes = .ok r ↔ bytes.length = size.toNat ∧
      UInt64.ofNat (wordAt bytes 0 8) = r.device ∧ UInt64.ofNat (wordAt bytes 8 8) = r.inode ∧
      FileType.ofNumber? (wordAt bytes 16 8) = some r.fileType ∧
      UInt64.ofNat (wordAt bytes 24 8) = r.numLinks ∧
      UInt64.ofNat (wordAt bytes 32 8) = r.fileSize ∧
      UInt64.ofNat (wordAt bytes 40 8) = r.atime ∧ UInt64.ofNat (wordAt bytes 48 8) = r.mtime ∧
      UInt64.ofNat (wordAt bytes 56 8) = r.ctime := by
  obtain ⟨device, inode, fileType, numLinks, fileSize, atime, mtime, ctime⟩ := r
  unfold unpack
  by_cases hlength : bytes.length = size.toNat
  · cases FileType.ofNumber? (wordAt bytes 16 8) <;> simp [hlength]
  · simp [hlength]

end FileStat

/-! ## Typed records

A `RecordFormat` is a record with its two descriptions. `Lawful` has what is peculiar to the record,
and is shown by computation for each of the three; `Agrees` is what is to be known. -/

/-- A typed record with its hand-written form beside the layout of its fields. -/
structure RecordFormat (α : Type) where
  kind : RecordKind
  pack : α → Bytes
  unpack : Bytes → Except ErrNo α
  /-- The fields of a record, as they are declared. -/
  values : α → List Value
  /-- The number that octets hold in the place of an enumeration. -/
  storedNumber : Bytes → Nat
  /-- The numbers of the enumeration. -/
  numbers : List Nat

namespace RecordFormat

variable {α : Type} {format : RecordFormat α}

/-- The hand-written form of a record and the layout of its fields are one format. -/
structure Agrees (format : RecordFormat α) : Prop where
  length_pack : ∀ r, (format.pack r).length = format.kind.size.toNat
  types_eq : ∀ r, (format.values r).map Value.primitive = format.kind.fields.map Prod.snd
  decodeBytes_pack : ∀ r, format.kind.layout.decodeBytes (format.pack r) = .ok (format.values r)
  encode_eq_pack : ∀ r (linear : LinearMemory) (record : UInt32), linear.bytes.size ≤ UInt32.size →
    record.toNat + format.kind.size.toNat ≤ linear.bytes.size →
    (∀ i < format.kind.size.toNat, linear.bytes.octetAt (record.toNat + i) = 0) →
    ∃ after, format.kind.layout.encode record (format.values r) (.attached linear) = .ok () after ∧
      after.slice record format.kind.size = .ok (format.pack r)
  unpack_pack : ∀ r, format.unpack (format.pack r) = .ok r
  unpack_ok_iff : ∀ bytes, (∃ r, format.unpack bytes = .ok r) ↔
    bytes.length = format.kind.size.toNat ∧ format.storedNumber bytes ∈ format.numbers
  decodeBytes_of_unpack : ∀ bytes r, format.unpack bytes = .ok r →
    format.kind.layout.decodeBytes bytes = .ok (format.values r)
  pack_of_unpack : ∀ bytes r, format.unpack bytes = .ok r →
    format.pack r = format.kind.layout.clearPadding bytes

/-- What has to be known of a record by itself: the packed form has the values in the ranges of the
fields and zeros elsewhere, and octets are read as the record whose values their fields hold. -/
structure Lawful (format : RecordFormat α) : Prop where
  length_pack : ∀ r, (format.pack r).length = format.kind.size.toNat
  types_eq : ∀ r, (format.values r).map Value.primitive = format.kind.fields.map Prod.snd
  cut_pack : ∀ r, (format.kind.layout.fields.map fun f => Layout.Field.cut f (format.pack r)) =
    (format.values r).map Value.encode
  padding_pack : ∀ r, format.kind.layout.clearPadding (format.pack r) = format.pack r
  unpack_eq_ok_iff : ∀ bytes r, format.unpack bytes = .ok r ↔
    bytes.length = format.kind.size.toNat ∧
      (format.kind.layout.fields.map fun f => f.valueIn bytes) = format.values r
  unpack_ok_iff : ∀ bytes, (∃ r, format.unpack bytes = .ok r) ↔
    bytes.length = format.kind.size.toNat ∧ format.storedNumber bytes ∈ format.numbers

end RecordFormat

def Prestat.format : RecordFormat Prestat where
  kind := .prestat
  pack := Prestat.pack
  unpack := Prestat.unpack
  values := Prestat.values
  storedNumber bytes := wordAt bytes 0 1
  numbers := [PreopenType.dir.number.toNat]

def FdStat.format : RecordFormat FdStat where
  kind := .fdstat
  pack := FdStat.pack
  unpack := FdStat.unpack
  values := FdStat.values
  storedNumber bytes := wordAt bytes 0 1
  numbers := FileType.all.map fun t => t.number.toNat

def FileStat.format : RecordFormat FileStat where
  kind := .filestat
  pack := FileStat.pack
  unpack := FileStat.unpack
  values := FileStat.values
  storedNumber bytes := wordAt bytes 16 8
  numbers := FileType.all.map fun t => t.number.toNat

/-- In `Prestat` octets 1 to 3 are padding, and the only preopen type has the number 0. -/
theorem Prestat.lawful : Prestat.format.Lawful where
  length_pack := length_pack
  types_eq _ := rfl
  cut_pack _ := rfl
  padding_pack r := by
    have hgaps : ∀ i < 8, (∃ f ∈ RecordKind.prestat.layout.fields, f.Covers 0 i) ∨
        i ∈ [1, 2, 3] := by decide
    refine Layout.clearPadding_eq_self fun i hi => ?_
    refine (hgaps i (length_pack r ▸ hi)).imp_right fun hgap => ?_
    obtain rfl | rfl | rfl : i = 1 ∨ i = 2 ∨ i = 3 := by simpa using hgap
    all_goals rfl
  unpack_eq_ok_iff bytes r := by
    have hvalues : (RecordKind.prestat.layout.fields.map fun f => f.valueIn bytes) =
        [.u8 (UInt8.ofNat (wordAt bytes 0 1)), .u32 (UInt32.ofNat (wordAt bytes 4 4))] := rfl
    -- the tag is compared as a number on one side, and as a value on the other
    have htag := PreopenType.ofNat_eq_number_iff (t := r.tag) (wordAt_lt bytes 0 1)
    refine unpack_eq_ok_iff.trans ?_
    simp [format, hvalues, values, RecordKind.size, htag]
  unpack_ok_iff bytes := by
    constructor
    · rintro ⟨r, hr⟩
      obtain ⟨hlength, htag, -⟩ := unpack_eq_ok_iff.mp hr
      rw [PreopenType.ofNumber?_eq_some_iff] at htag
      exact ⟨hlength, List.mem_singleton.mpr htag⟩
    · rintro ⟨hlength, hnumber⟩
      have htag := PreopenType.ofNumber?_eq_some_iff.mpr (List.mem_singleton.mp hnumber)
      exact ⟨⟨.dir, _⟩, unpack_eq_ok_iff.mpr ⟨hlength, htag, rfl⟩⟩

/-- In `FdStat` octet 1 and octets 4 to 7 are padding. -/
theorem FdStat.lawful : FdStat.format.Lawful where
  length_pack := length_pack
  types_eq _ := rfl
  cut_pack _ := rfl
  padding_pack r := by
    -- which octets are padding can be computed; that they are zero is read off the packed form
    have hgaps : ∀ i < 24, (∃ f ∈ RecordKind.fdstat.layout.fields, f.Covers 0 i) ∨
        i ∈ [1, 4, 5, 6, 7] := by decide
    refine Layout.clearPadding_eq_self fun i hi => ?_
    refine (hgaps i (length_pack r ▸ hi)).imp_right fun hgap => ?_
    obtain rfl | rfl | rfl | rfl | rfl : i = 1 ∨ i = 4 ∨ i = 5 ∨ i = 6 ∨ i = 7 := by
      simpa using hgap
    all_goals rfl
  unpack_eq_ok_iff bytes r := by
    have hvalues : (RecordKind.fdstat.layout.fields.map fun f => f.valueIn bytes) =
        [.u8 (UInt8.ofNat (wordAt bytes 0 1)), .u16 (UInt16.ofNat (wordAt bytes 2 2)),
          .u64 (UInt64.ofNat (wordAt bytes 8 8)), .u64 (UInt64.ofNat (wordAt bytes 16 8))] := rfl
    have htype := FileType.ofNat_eq_number_iff (t := r.fileType) (wordAt_lt bytes 0 1)
    refine unpack_eq_ok_iff.trans ?_
    simp [format, hvalues, values, RecordKind.size, htype]
  unpack_ok_iff bytes := by
    constructor
    · rintro ⟨r, hr⟩
      obtain ⟨hlength, htype, -⟩ := unpack_eq_ok_iff.mp hr
      exact ⟨hlength, FileType.mem_numbers_iff.mpr ⟨_, htype⟩⟩
    · rintro ⟨hlength, hnumber⟩
      obtain ⟨t, htype⟩ := FileType.mem_numbers_iff.mp hnumber
      exact ⟨⟨t, _, _, _⟩, unpack_eq_ok_iff.mpr ⟨hlength, htype, rfl, rfl, rfl⟩⟩

/-- `FileStat` has no padding: every field but the file type is a word of eight octets, and that one
is stored in eight. -/
theorem FileStat.lawful : FileStat.format.Lawful where
  length_pack := length_pack
  types_eq _ := rfl
  cut_pack _ := rfl
  padding_pack r := by
    -- every octet belongs to a field
    have hfull : ∀ i < 64, ∃ f ∈ RecordKind.filestat.layout.fields, f.Covers 0 i := by decide
    exact Layout.clearPadding_eq_self fun i hi => .inl (hfull i (length_pack r ▸ hi))
  unpack_eq_ok_iff bytes r := by
    have hvalues : (RecordKind.filestat.layout.fields.map fun f => f.valueIn bytes) =
        [0, 8, 16, 24, 32, 40, 48, 56].map fun offset =>
          .u64 (UInt64.ofNat (wordAt bytes offset 8)) := rfl
    have htype := FileType.ofNat_eq_wide_number_iff (t := r.fileType) (wordAt_lt bytes 16 8)
    refine unpack_eq_ok_iff.trans ?_
    simp [format, hvalues, values, RecordKind.size, htype]
  unpack_ok_iff bytes := by
    constructor
    · rintro ⟨r, hr⟩
      obtain ⟨hlength, -, -, htype, -⟩ := unpack_eq_ok_iff.mp hr
      exact ⟨hlength, FileType.mem_numbers_iff.mpr ⟨_, htype⟩⟩
    · rintro ⟨hlength, hnumber⟩
      obtain ⟨t, htype⟩ := FileType.mem_numbers_iff.mp hnumber
      exact ⟨⟨_, _, t, _, _, _, _, _⟩,
        unpack_eq_ok_iff.mpr ⟨hlength, rfl, rfl, htype, rfl, rfl, rfl, rfl, rfl⟩⟩

/-! ## The agreement

Here nothing depends on the record any more. `RecordKind.orderly_layout` puts its fields in order,
and what is stored over zeros is compared octet by octet (`slice_putAll`). -/

namespace RecordKind

theorem orderly_layout (kind : RecordKind) : kind.layout.Orderly := by
  refine Layout.Built.orderly (.ofFields .aligned kind.fields ?_)
  cases kind <;> decide

theorem types_layout (kind : RecordKind) :
    kind.layout.fields.map Field.primitive = kind.fields.map Prod.snd := by
  cases kind <;> rfl

end RecordKind

namespace RecordFormat.Lawful

variable {α : Type} {format : RecordFormat α} {bytes : Bytes} {r : α}

/-- `valueIn` of the fields in `format.pack r` is `format.values r`. -/
theorem valueIn_pack (h : format.Lawful) (r : α) :
    (format.kind.layout.fields.map fun f => f.valueIn (format.pack r)) = format.values r :=
  Layout.map_valueIn_eq ((h.types_eq r).trans format.kind.types_layout.symm) (h.cut_pack r)

theorem unpack_pack (h : format.Lawful) (r : α) : format.unpack (format.pack r) = .ok r :=
  (h.unpack_eq_ok_iff _ _).mpr ⟨h.length_pack r, h.valueIn_pack r⟩

/-- `putAll` of `values` over zeros is the octets that `unpack` reads `r` from, up to padding. -/
theorem slice_putAll (h : format.Lawful) {linear : LinearMemory} {record : UInt32}
    (hinside : format.kind.layout.Inside record linear)
    (hzero : ∀ i < format.kind.size.toNat, linear.bytes.octetAt (record.toNat + i) = 0)
    (hunpack : format.unpack bytes = .ok r) :
    (linear.putAll record (format.kind.layout.fields.zip (format.values r))).bytes.slice
        record.toNat format.kind.size.toNat =
      format.kind.layout.clearPadding bytes := by
  obtain ⟨hlength, hvalues⟩ := (h.unpack_eq_ok_iff _ _).mp hunpack
  rw [← format.kind.size_layout] at hzero hlength ⊢
  exact hinside.slice_putAll hzero hlength hvalues

/-- `encode` of `values` over zeros is `pack`. -/
theorem encode_eq_pack (h : format.Lawful) (r : α) (linear : LinearMemory) (record : UInt32)
    (hsize : linear.bytes.size ≤ UInt32.size)
    (hend : record.toNat + format.kind.size.toNat ≤ linear.bytes.size)
    (hzero : ∀ i < format.kind.size.toNat, linear.bytes.octetAt (record.toNat + i) = 0) :
    ∃ after, format.kind.layout.encode record (format.values r) (.attached linear) = .ok () after ∧
      after.slice record format.kind.size = .ok (format.pack r) := by
  have hinside : format.kind.layout.Inside record linear :=
    ⟨format.kind.orderly_layout, format.kind.size_layout ▸ hend, hsize⟩
  have hslice := h.slice_putAll hinside hzero (h.unpack_pack r)
  rw [h.padding_pack] at hslice
  refine ⟨_, hinside.encode_eq ((h.types_eq r).trans format.kind.types_layout.symm), ?_⟩
  refine Memory.slice_eq_ok_iff.mpr ⟨_, rfl, ?_, hslice.symm⟩
  rw [InRange, LinearMemory.size_putAll]
  exact hend

/-- `pack` of what `unpack` reads loses only padding. -/
theorem pack_of_unpack (h : format.Lawful) (hunpack : format.unpack bytes = .ok r) :
    format.pack r = format.kind.layout.clearPadding bytes := by
  -- both are what the values are encoded to over zeros
  have hinside : format.kind.layout.Inside 0 (.zeros format.kind.size.toNat) := by
    refine ⟨format.kind.orderly_layout, ?_, Nat.le_of_lt format.kind.size.toNat_lt⟩
    rw [format.kind.size_layout]
    exact Nat.le_of_eq (Nat.zero_add _)
  have hzero : ∀ i < format.kind.size.toNat,
      (LinearMemory.zeros format.kind.size.toNat).bytes.octetAt ((0 : UInt32).toNat + i) = 0 :=
    fun i _ => Octets.octetAt_zeros _ _
  rw [← h.padding_pack r, ← h.slice_putAll hinside hzero (h.unpack_pack r),
    h.slice_putAll hinside hzero hunpack]

/-- All of `RecordFormat.Agrees` follows from `RecordFormat.Lawful`, by what is known of any
layout. -/
theorem agrees (h : format.Lawful) : format.Agrees where
  length_pack := h.length_pack
  types_eq := h.types_eq
  decodeBytes_pack r := by
    rw [Layout.decodeBytes_eq_ok_iff format.kind.orderly_layout, format.kind.size_layout]
    exact ⟨h.length_pack r, h.valueIn_pack r⟩
  encode_eq_pack := h.encode_eq_pack
  unpack_pack := h.unpack_pack
  unpack_ok_iff := h.unpack_ok_iff
  decodeBytes_of_unpack bytes r hunpack := by
    rw [Layout.decodeBytes_eq_ok_iff format.kind.orderly_layout, format.kind.size_layout]
    exact (h.unpack_eq_ok_iff bytes r).mp hunpack
  pack_of_unpack _ _ := h.pack_of_unpack

end RecordFormat.Lawful

namespace IoVec

theorem length_pack (v : IoVec) : v.pack.length = size.toNat := by
  simp [pack, size]

theorem unpack_pack (v : IoVec) : unpack v.pack = .ok v := by
  have hbuf : wordAt v.pack 0 4 = v.buf.toNat := by
    rw [wordAt, pack, List.drop_zero, List.take_left' (LittleEndian.length_encode _ _),
      LittleEndian.decode_encode]
    exact Nat.mod_eq_of_lt v.buf.toNat_lt
  have hlen : wordAt v.pack 4 4 = v.len.toNat := by
    rw [wordAt, pack, List.drop_left' (LittleEndian.length_encode _ _),
      List.take_of_length_le (Nat.le_of_eq (LittleEndian.length_encode _ _)),
      LittleEndian.decode_encode]
    exact Nat.mod_eq_of_lt v.len.toNat_lt
  rw [unpack, if_pos v.length_pack, hbuf, hlen, UInt32.ofNat_toNat, UInt32.ofNat_toNat]

/-- `IoVec.unpack` accepts any eight octets, and `pack` gives them back. -/
theorem exists_of_length {bytes : Bytes} (h : bytes.length = size.toNat) :
    ∃ v, unpack bytes = .ok v ∧ v.pack = bytes := by
  -- the first four octets are one word, the last four the other
  have height : bytes.length = 8 := h
  refine ⟨_, if_pos h, ?_⟩
  rw [pack, UInt32.toNat_ofNat_of_lt' (wordAt_lt bytes 0 4),
    UInt32.toNat_ofNat_of_lt' (wordAt_lt bytes 4 4), encode_wordAt (by omega),
    encode_wordAt (by omega), List.drop_zero]
  have hlast : (bytes.drop 4).take 4 = bytes.drop 4 :=
    List.take_of_length_le (by rw [List.length_drop]; omega)
  rw [hlast, List.take_append_drop]

end IoVec

/-- `pack` and `unpack` of the three records and the layouts of their fields are one format, and an
`IoVec` is nothing but its two words. -/
theorem records_agree :
    Prestat.format.Agrees ∧ FdStat.format.Agrees ∧ FileStat.format.Agrees ∧
      (∀ v : IoVec, v.pack.length = IoVec.size.toNat ∧ IoVec.unpack v.pack = .ok v) ∧
      ∀ bytes : Bytes, bytes.length = IoVec.size.toNat →
        ∃ v, IoVec.unpack bytes = .ok v ∧ v.pack = bytes :=
  ⟨Prestat.lawful.agrees, FdStat.lawful.agrees, FileStat.lawful.agrees,
    fun v => ⟨v.length_pack, v.unpack_pack⟩, fun _ => IoVec.exists_of_length⟩

end WasiHost
