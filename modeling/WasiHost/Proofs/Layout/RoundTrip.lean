import WasiHost.Proofs.Layout.FieldStore
import WasiHost.Proofs.Layout.Placement

/-!
# Records that are stored and read back

A record in memory is its fields. Each field is stored into its own range and found again there, and
since no two ranges overlap, storing one field leaves the others alone. So values that are stored
together are read back together and one by one, values that were read can be stored back without any
change, and a single field can be exchanged.

* **`LinearMemory.valueAt`** — a field of a record in memory.
* **`Storable.valueAt_putAll`** — later fields leave earlier ones alone.
* **`Layout.Inside.decode_eq`**, **`Layout.Inside.encode_eq`**,
  **`Layout.FirstNamed.readField_eq`**, **`Layout.FirstNamed.writeField_eq`** — what the codec
  does, in terms of fields.
* **`Layout.Built.roundTrips`** — the round trips, from either end and for a single field.
-/

namespace WasiHost

open Memory

/-! ## Fields in the octets of a record

`Layout.Field.cut` takes the octets of a field out of those of the record, and `Field.valueIn` is
the value they are read as. -/

namespace Field

/-- The value of a field in the octets of a record. -/
def valueIn (f : Field) (bytes : Bytes) : Value :=
  Value.ofBits f.primitive (LittleEndian.decode (Layout.Field.cut f bytes))

/-- The indices of guest memory that a field of the record at an address covers. -/
def Covers (f : Field) (record : UInt32) (i : Nat) : Prop :=
  record.toNat + f.offset.toNat ≤ i ∧ i < record.toNat + f.offset.toNat + f.primitive.size.toNat

/-- A field of the record at an address lies inside a memory all of which words can address. -/
structure LiesIn (f : Field) (record : UInt32) (linear : LinearMemory) : Prop where
  end_le : record.toNat + f.offset.toNat + f.primitive.size.toNat ≤ linear.bytes.size
  addressable : linear.bytes.size ≤ UInt32.size

end Field

namespace Layout

theorem length_cut {f : Field} {bytes : Bytes}
    (h : f.offset.toNat + f.primitive.size.toNat ≤ bytes.length) :
    (Field.cut f bytes).length = f.primitive.size.toNat := by
  rw [Field.cut, List.length_take, List.length_drop]
  omega

/-- `decodeValue` accepts octets as many as the type is wide. -/
theorem decodeValue_eq {p : Primitive} {bytes : Bytes} (h : bytes.length = p.size.toNat) :
    decodeValue p bytes = .ok (Value.ofBits p (LittleEndian.decode bytes)) := by
  rw [decodeValue, Value.decode?, if_pos h]

/-- `decodeFields` accepts fields that end inside the octets. -/
theorem decodeFields_eq {bytes : Bytes} {fields : List Field}
    (h : ∀ f ∈ fields, f.offset.toNat + f.primitive.size.toNat ≤ bytes.length) :
    decodeFields bytes fields = .ok (fields.map fun f => f.valueIn bytes) := by
  induction fields with
  | nil => rfl
  | cons f rest ih =>
    obtain ⟨hf, hrest⟩ := List.forall_mem_cons.mp h
    rw [decodeFields, decodeValue_eq (length_cut hf), ih hrest]
    rfl

/-- `decodeBytes` of an `Orderly` layout takes `valueIn` of every field. -/
theorem decodeBytes_eq {layout : Layout} (h : layout.Orderly) {bytes : Bytes}
    (hlength : bytes.length = layout.size.toNat) :
    layout.decodeBytes bytes = .ok (layout.fields.map fun f => f.valueIn bytes) := by
  rw [decodeBytes, if_pos hlength]
  exact decodeFields_eq fun f hf => hlength ▸ h.end_le f hf

end Layout

/-! ## A field in memory

The same field at an address. As long as it is `LiesIn` memory, its address does not leave the range
of a word, and what is known of accesses (`Field.Fits`, `heldAt`) is known of the field itself. -/

namespace LinearMemory

/-- The value of a field of the record at an address. -/
def valueAt (linear : LinearMemory) (record : UInt32) (f : Field) : Value :=
  Value.ofBits f.primitive
    (LittleEndian.decode
      (linear.bytes.slice (record.toNat + f.offset.toNat) f.primitive.size.toNat))

end LinearMemory

namespace Field.LiesIn

variable {linear : LinearMemory} {record : UInt32} {f g : Field} {v : Value}

/-- The address of a field that `LiesIn` memory does not wrap. -/
theorem toNat_address (h : f.LiesIn record linear) :
    (Layout.Field.address f record).toNat = record.toNat + f.offset.toNat := by
  have hpos := f.primitive.size_pos
  have hend := h.end_le
  have hlimit := h.addressable
  exact toNat_add_of_lt (by omega)

theorem congr (h : f.LiesIn record linear) {after : LinearMemory}
    (hsize : after.bytes.size = linear.bytes.size) : f.LiesIn record after where
  end_le := hsize ▸ h.end_le
  addressable := hsize ▸ h.addressable

theorem fits (h : f.LiesIn record linear) : f.Fits record linear.bytes.size := by
  rw [Fits, h.toNat_address]
  exact h.end_le

/-- So an access to the field reaches what it `Covers`. -/
theorem reaches_iff (h : f.LiesIn record linear) {i : Nat} :
    f.Reaches record i ↔ f.Covers record i := by
  rw [Reaches, Spans, h.toNat_address, Covers]

/-- What an access finds is `LinearMemory.valueAt`. -/
theorem heldAt_eq (h : f.LiesIn record linear) (memory : LinearMemory) :
    memory.heldAt record f = memory.valueAt record f := by
  rw [LinearMemory.heldAt, h.toNat_address, LinearMemory.valueAt]

/-- `put` changes nothing outside what the field `Covers`. -/
theorem sameOutside_put (h : f.LiesIn record linear) (htype : f.primitive = v.primitive) :
    SameOutside (f.Covers record) (.attached linear) (.attached (linear.put record f v)) :=
  (h.fits.sameOutside_put htype).mono fun _ => h.reaches_iff.mp

theorem valueAt_put (h : f.LiesIn record linear) (htype : f.primitive = v.primitive) :
    (linear.put record f v).valueAt record f = v := by
  rw [← h.heldAt_eq]
  exact h.fits.heldAt_put htype

/-- `valueAt` of a field before or after the one that was `put` stays. -/
theorem valueAt_put_of_apart (h : f.LiesIn record linear) (htype : f.primitive = v.primitive)
    (hapart : f.Before g ∨ g.Before f) :
    (linear.put record f v).valueAt record g = linear.valueAt record g := by
  rw [LinearMemory.valueAt, LinearMemory.valueAt, (h.sameOutside_put htype).slice_eq]
  intro i hlo hhi hcovers
  unfold Covers at hcovers
  unfold Before at hapart
  omega

theorem apart (hf : f.LiesIn record linear) (hg : g.LiesIn record linear)
    (hbefore : f.Before g) : f.Apart record g := by
  intro i hi hcovers
  rw [hf.reaches_iff, Covers] at hi
  rw [hg.reaches_iff, Covers] at hcovers
  unfold Before at hbefore
  omega

end Field.LiesIn

/-! ## Several fields in memory

What `Fitting` says about accesses holds of the fields, since all of them lie in memory. Inductions
on the fields were made there, and none is made again. -/

/-- A pair of a field and a value that can be stored in it: the field lies in memory and is of the
value's type. -/
structure Storable (record : UInt32) (linear : LinearMemory) (pair : Field × Value) : Prop where
  liesIn : pair.1.LiesIn record linear
  type_eq : pair.1.primitive = pair.2.primitive

namespace Storable

variable {linear : LinearMemory} {record : UInt32} {pairs : List (Field × Value)}

theorem fitting {pair : Field × Value} (h : Storable record linear pair) :
    Fitting record linear.bytes.size pair where
  fits := h.liesIn.fits
  type_eq := h.type_eq

/-- `encodeFields` stores fields that lie in memory, by `putAll`. -/
theorem encodeFields_eq (h : ∀ pair ∈ pairs, Storable record linear pair) :
    Layout.encodeFields record pairs (.attached linear) =
      .ok () (.attached (linear.putAll record pairs)) := by
  rw [Layout.encodeFields_eq fun pair hpair => (h pair hpair).type_eq]
  exact if_pos fun pair hpair => (h pair hpair).liesIn.fits

/-- `putAll` changes nothing outside what the fields cover. -/
theorem sameOutside_putAll (h : ∀ pair ∈ pairs, Storable record linear pair) :
    SameOutside (fun i => ∃ pair ∈ pairs, pair.1.Covers record i) (.attached linear)
      (.attached (linear.putAll record pairs)) := by
  refine (Fitting.sameOutside_putAll fun pair hpair => (h pair hpair).fitting).mono ?_
  rintro i ⟨pair, hpair, hreaches⟩
  exact ⟨pair, hpair, (h pair hpair).liesIn.reaches_iff.mp hreaches⟩

/-- `valueAt` finds after `putAll` what was stored, if each field is `Before` the next ones: inside
memory that is `Fitting.heldAt_putAll`. -/
theorem valueAt_putAll (h : ∀ pair ∈ pairs, Storable record linear pair)
    (hordered : (pairs.map Prod.fst).Pairwise Field.Before) :
    (pairs.map Prod.fst).map ((linear.putAll record pairs).valueAt record) =
      pairs.map Prod.snd := by
  have hlies : ∀ f ∈ pairs.map Prod.fst, f.LiesIn record linear := by
    rintro f hf
    obtain ⟨pair, hpair, rfl⟩ := List.mem_map.mp hf
    exact (h pair hpair).liesIn
  have hapart : (pairs.map Prod.fst).Pairwise (Field.Apart record) :=
    hordered.imp_of_mem fun hf hg => (hlies _ hf).apart (hlies _ hg)
  have hheld := Fitting.heldAt_putAll (fun pair hpair => (h pair hpair).fitting) hapart
  rw [List.map_map]
  refine List.map_congr_left fun pair hpair => ?_
  show (linear.putAll record pairs).valueAt record pair.1 = pair.2
  rw [← (h pair hpair).liesIn.heldAt_eq]
  exact hheld pair hpair

/-- `putAll` of what `valueAt` finds changes nothing. -/
theorem putAll_valueAt {fields : List Field} (h : ∀ f ∈ fields, f.LiesIn record linear) :
    linear.putAll record (fields.map fun f => (f, linear.valueAt record f)) = linear := by
  apply Fitting.putAll_eq_self
  · simpa using fun f hf => (h f hf).fits
  · simpa using fun f hf => (h f hf).heldAt_eq linear

end Storable

/-! ## Values that match fields

`Layout.checkValues` compares numbers and types. `Matches` is the one equation that both come to. -/

namespace Layout

variable {layout : Layout} {fields : List Field} {values : List Value}

/-- The values are as many as the fields and of their types. -/
def Matches (fields : List Field) (values : List Value) : Prop :=
  values.map Value.primitive = fields.map Field.primitive

namespace Matches

theorem length_eq (h : Matches fields values) : values.length = fields.length := by
  simpa using congrArg List.length h

theorem fst_zip (h : Matches fields values) : (fields.zip values).map Prod.fst = fields :=
  List.map_fst_zip (Nat.le_of_eq h.length_eq.symm)

theorem snd_zip (h : Matches fields values) : (fields.zip values).map Prod.snd = values :=
  List.map_snd_zip (Nat.le_of_eq h.length_eq)

theorem type_eq (h : Matches fields values) {pair : Field × Value}
    (hpair : pair ∈ fields.zip values) : pair.1.primitive = pair.2.primitive := by
  obtain ⟨i, hi, rfl⟩ := List.mem_iff_getElem.mp hpair
  rw [List.length_zip] at hi
  have hget := List.getElem_of_eq h (i := i) (by rw [List.length_map]; omega)
  simpa using hget.symm

theorem checkTypes_eq (h : Matches fields values) : checkTypes fields values = .ok () := by
  induction fields generalizing values with
  | nil => simp [checkTypes]
  | cons f fields ih =>
    cases values with
    | nil => simp [checkTypes]
    | cons v values =>
      obtain ⟨htype, hrest⟩ := List.cons.inj h
      rw [checkTypes, checkType, if_pos htype.symm]
      exact ih hrest

theorem checkValues_eq (h : Matches layout.fields values) : layout.checkValues values = .ok () := by
  rw [checkValues, if_pos h.length_eq]
  exact h.checkTypes_eq

end Matches

theorem matches_valueAt (linear : LinearMemory) (record : UInt32) (fields : List Field) :
    Matches fields (fields.map (linear.valueAt record)) := by
  simp [Matches, LinearMemory.valueAt]

/-! ## What the codec does

Encoding, decoding and access by name for a record that lies `Inside` memory. The field that a name
stands for is the first one of that name: `FirstNamed`. -/

variable {linear : LinearMemory} {record : UInt32}

/-- `decode` looks at the whole record, and takes `valueAt` of every field if it lies inside. -/
theorem Orderly.decode_eq (h : layout.Orderly) :
    layout.decode (.attached linear) record =
      if record.toNat + layout.size.toNat ≤ linear.bytes.size then
        .ok (layout.fields.map (linear.valueAt record))
      else .error (.memory (.guest .fault)) := by
  by_cases hinside : record.toNat + layout.size.toNat ≤ linear.bytes.size
  · have hslice : Memory.slice (.attached linear) record layout.size =
        .ok (linear.bytes.slice record.toNat layout.size.toNat) :=
      Memory.slice_eq_ok_iff.mpr ⟨linear, rfl, hinside, rfl⟩
    simp only [decode, hslice, if_pos hinside]
    rw [decodeBytes_eq h (Octets.length_slice _ _ _)]
    refine congrArg _ (List.map_congr_left fun f hf => ?_)
    rw [Field.valueIn, Field.cut, Octets.take_drop_slice _ _ (h.end_le f hf)]
    rfl
  · simp only [decode, Memory.slice_of_outside hinside, if_neg hinside]

/-- The record at an address lies inside a memory all of which words can address. -/
structure Inside (layout : Layout) (record : UInt32) (linear : LinearMemory) : Prop where
  orderly : layout.Orderly
  end_le : record.toNat + layout.size.toNat ≤ linear.bytes.size
  addressable : linear.bytes.size ≤ UInt32.size

namespace Inside

theorem congr (h : layout.Inside record linear) {after : LinearMemory}
    (hsize : after.bytes.size = linear.bytes.size) : layout.Inside record after where
  orderly := h.orderly
  end_le := hsize ▸ h.end_le
  addressable := hsize ▸ h.addressable

theorem liesIn (h : layout.Inside record linear) {f : Field} (hf : f ∈ layout.fields) :
    f.LiesIn record linear where
  end_le := by
    have hfield := h.orderly.end_le f hf
    have hrecord := h.end_le
    omega
  addressable := h.addressable

/-- Values that `Matches` the fields of a record `Inside` memory are `Storable`. -/
theorem storable (h : layout.Inside record linear) (hmatch : Matches layout.fields values) :
    ∀ pair ∈ layout.fields.zip values, Storable record linear pair := fun _ hpair =>
  { liesIn := h.liesIn (List.of_mem_zip hpair).1
    type_eq := hmatch.type_eq hpair }

/-- Once they are stored by `putAll`, the fields hold the values. -/
theorem map_valueAt_putAll (h : layout.Inside record linear)
    (hmatch : Matches layout.fields values) :
    layout.fields.map ((linear.putAll record (layout.fields.zip values)).valueAt record) =
      values := by
  -- the fields of a record are in order, so no value is stored over another
  have hput := Storable.valueAt_putAll (h.storable hmatch)
    (hmatch.fst_zip.symm ▸ h.orderly.ordered)
  rwa [hmatch.fst_zip, hmatch.snd_zip] at hput

/-- `encode` of a record `Inside` memory is `putAll`. -/
theorem encode_eq (h : layout.Inside record linear) (hmatch : Matches layout.fields values) :
    layout.encode record values (.attached linear) =
      .ok () (.attached (linear.putAll record (layout.fields.zip values))) := by
  rw [encode, hmatch.checkValues_eq]
  exact Storable.encodeFields_eq (h.storable hmatch)

/-- `decode` of a record `Inside` memory is `valueAt` of every field. -/
theorem decode_eq (h : layout.Inside record linear) :
    layout.decode (.attached linear) record =
      .ok (layout.fields.map (linear.valueAt record)) := by
  rw [h.orderly.decode_eq, if_pos h.end_le]

end Inside

/-- A field stands at an index and is the first one of its name. -/
structure FirstNamed (layout : Layout) (name : String) (i : Nat) (f : Field) : Prop where
  getElem?_eq : layout.fields[i]? = some f
  name_eq : f.name = name
  first : ∀ j g, j < i → layout.fields[j]? = some g → g.name ≠ name

namespace FirstNamed

variable {name : String} {i : Nat} {f : Field} {v : Value}

theorem mem (h : layout.FirstNamed name i f) : f ∈ layout.fields :=
  List.mem_of_getElem? h.getElem?_eq

theorem field_eq (h : layout.FirstNamed name i f) : layout.field name = .ok f := by
  obtain ⟨hlt, hget⟩ := List.getElem?_eq_some_iff.mp h.getElem?_eq
  have hfind : layout.fields.find? (fun f => f.name = name) = some f := by
    rw [List.find?_eq_some_iff_getElem]
    refine ⟨by simpa using h.name_eq, i, hlt, hget, fun j hj => ?_⟩
    simpa using h.first j _ hj (List.getElem?_eq_getElem (Nat.lt_trans hj hlt))
  rw [field, hfind]

/-- `readField` takes the value of the field that is `FirstNamed`. -/
theorem readField_eq (h : layout.FirstNamed name i f) (hinside : layout.Inside record linear) :
    layout.readField (.attached linear) record name = .ok (linear.valueAt record f) := by
  have hlies := hinside.liesIn h.mem
  have hslice : Memory.slice (.attached linear) (Field.address f record) f.primitive.size =
      .ok (linear.bytes.slice (record.toNat + f.offset.toNat) f.primitive.size.toNat) := by
    refine Memory.slice_eq_ok_iff.mpr ⟨linear, rfl, ?_, by rw [hlies.toNat_address]⟩
    rw [InRange, hlies.toNat_address]
    exact hlies.end_le
  simp only [readField, h.field_eq, hslice]
  exact decodeValue_eq (Octets.length_slice _ _ _)

/-- `writeField` stores the value in the field that is `FirstNamed`. -/
theorem writeField_eq (h : layout.FirstNamed name i f) (hinside : layout.Inside record linear)
    (htype : f.primitive = v.primitive) :
    layout.writeField record name v (.attached linear) =
      .ok () (.attached (linear.put record f v)) := by
  simp only [writeField, h.field_eq, checkType, if_pos htype, EStateM.adaptExcept,
    (hinside.liesIn h.mem).fits.write_eq htype]

/-- `put` into the field at `i` sets the value at `i` and no other. -/
theorem map_valueAt_put (h : layout.FirstNamed name i f) (hinside : layout.Inside record linear)
    (htype : f.primitive = v.primitive) :
    layout.fields.map ((linear.put record f v).valueAt record) =
      (layout.fields.map (linear.valueAt record)).set i v := by
  have hlies := hinside.liesIn h.mem
  have hordered := List.pairwise_iff_getElem.mp hinside.orderly.ordered
  obtain ⟨hlt, rfl⟩ := List.getElem?_eq_some_iff.mp h.getElem?_eq
  refine List.ext_getElem (by simp) fun j hj _ => ?_
  rw [List.length_map] at hj
  rw [List.getElem_map, List.getElem_set]
  split
  · next heq =>
    subst heq
    exact hlies.valueAt_put htype
  · next hne =>
    rw [List.getElem_map]
    refine hlies.valueAt_put_of_apart htype ?_
    -- any other field stands before or after this one
    obtain hafter | hbefore := Nat.lt_or_gt_of_ne hne
    · exact .inl (hordered i j hlt hj hafter)
    · exact .inr (hordered j i hj hlt hbefore)

end FirstNamed

/-! ## The round trips

Each of the three parts is shown by itself, as a lemma about `Inside`. -/

/-- A record of the layout can be stored at an address of a memory, and read, and changed:

* `stored` — values that match the fields are stored, are then found together and one by one, and
  nothing outside the fields has changed;
* `kept` — what is there is read, and storing it back changes nothing;
* `replaced` — a single field is exchanged and the others keep their values. -/
structure RoundTrips (layout : Layout) (linear : LinearMemory) (record : UInt32) : Prop where
  stored : ∀ values, Matches layout.fields values →
    ∃ after, layout.encode record values (.attached linear) = .ok () after ∧
      layout.decode after record = .ok values ∧
      (∀ name i f, layout.FirstNamed name i f →
        ∃ v, values[i]? = some v ∧ layout.readField after record name = .ok v) ∧
      SameOutside (fun i => ∃ f ∈ layout.fields, f.Covers record i) (.attached linear) after
  kept : ∃ values, layout.decode (.attached linear) record = .ok values ∧
    layout.encode record values (.attached linear) = .ok () (.attached linear)
  replaced : ∀ name i f v, layout.FirstNamed name i f → f.primitive = v.primitive →
    ∃ before after, layout.decode (.attached linear) record = .ok before ∧
      layout.writeField record name v (.attached linear) = .ok () after ∧
      layout.decode after record = .ok (before.set i v)

namespace Inside

theorem stored (h : layout.Inside record linear) (hmatch : Matches layout.fields values) :
    ∃ after, layout.encode record values (.attached linear) = .ok () after ∧
      layout.decode after record = .ok values ∧
      (∀ name i f, layout.FirstNamed name i f →
        ∃ v, values[i]? = some v ∧ layout.readField after record name = .ok v) ∧
      SameOutside (fun i => ∃ f ∈ layout.fields, f.Covers record i) (.attached linear) after := by
  have hafter : layout.Inside record (linear.putAll record (layout.fields.zip values)) :=
    h.congr LinearMemory.size_putAll
  have hvalues := h.map_valueAt_putAll hmatch
  refine ⟨_, h.encode_eq hmatch, ?_, fun name i f hname => ⟨_, ?_, hname.readField_eq hafter⟩, ?_⟩
  · rw [hafter.decode_eq, hvalues]
  · have hget := congrArg (·[i]?) hvalues
    simpa only [List.getElem?_map, hname.getElem?_eq, Option.map_some] using hget.symm
  · refine (Storable.sameOutside_putAll (h.storable hmatch)).mono ?_
    rintro i ⟨pair, hpair, hcovers⟩
    exact ⟨pair.1, (List.of_mem_zip hpair).1, hcovers⟩

theorem kept (h : layout.Inside record linear) :
    ∃ values, layout.decode (.attached linear) record = .ok values ∧
      layout.encode record values (.attached linear) = .ok () (.attached linear) := by
  refine ⟨_, h.decode_eq, ?_⟩
  rw [h.encode_eq (matches_valueAt linear record layout.fields), ← List.map_prod_left_eq_zip,
    Storable.putAll_valueAt fun f hf => h.liesIn hf]

theorem replaced (h : layout.Inside record linear) {name : String} {i : Nat} {f : Field}
    {v : Value} (hname : layout.FirstNamed name i f) (htype : f.primitive = v.primitive) :
    ∃ before after, layout.decode (.attached linear) record = .ok before ∧
      layout.writeField record name v (.attached linear) = .ok () after ∧
      layout.decode after record = .ok (before.set i v) := by
  refine ⟨_, _, h.decode_eq, hname.writeField_eq h htype, ?_⟩
  rw [(h.congr LinearMemory.size_put).decode_eq, hname.map_valueAt_put h htype]

end Inside

/-- A record of any `Built` layout can be stored, read and changed at any address that leaves room
for it. -/
theorem Built.roundTrips (h : layout.Built) (hsize : linear.bytes.size ≤ UInt32.size)
    (hinside : record.toNat + layout.size.toNat ≤ linear.bytes.size) :
    layout.RoundTrips linear record := by
  have hrecord : layout.Inside record linear := ⟨h.orderly, hinside, hsize⟩
  exact
    { stored := fun _ => hrecord.stored
      kept := hrecord.kept
      replaced := fun _ _ _ _ => hrecord.replaced }

/-- Three fields, two of them named `a`, stand at an odd address. -/
theorem Built.roundTrips_padded :
    (Layout.ofFields .aligned [("a", .u8), ("b", .i64), ("a", .i16)]).RoundTrips (.zeros 64) 3 :=
  Built.roundTrips (.ofFields .aligned [("a", .u8), ("b", .i64), ("a", .i16)] (by decide))
    (by decide) (by decide)

end Layout

end WasiHost
