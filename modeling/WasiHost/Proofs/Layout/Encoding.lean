import Mathlib.Data.List.TakeWhile
import WasiHost.Proofs.Layout.FieldAccess
import WasiHost.Proofs.Layout.Offsets

/-!
# Encoding at the edges of memory

Decoding a record looks at its whole range once. Encoding looks at the range of one field after the
other, each at its address modulo the range of a word, and never at the padding. So a record of
which only the padding lies outside memory is encoded but not decoded, one that reaches beyond the
last address is encoded into the start of memory, and one of which only some fields fit is left half
written. Other than that the two agree.

* **`Layout.Matches.encode_eq`** — how encoding ends, and what it leaves.
* **`Layout.encode_unchanged_iff`** — when an error of encoding leaves memory as it was.
* **`Layout.Agrees`** — encoding accepts what decoding accepts, and is undone by it.
* **`Layout.agrees_iff`** — when that is so.
-/

namespace WasiHost

namespace Layout

variable {layout : Layout} {linear : LinearMemory} {record : UInt32} {fields : List Field}
  {values : List Value}

/-! ## How encoding ends

The values are checked before anything is stored, and memory is checked while they are. So there are
three ends: refused values, a refused field, and all fields stored. -/

/-- `checkTypes` compares as far as both lists go, so with lists of one length it compares all. -/
theorem matches_of_checkTypes (hlength : values.length = fields.length)
    (h : checkTypes fields values = .ok ()) : Matches fields values := by
  induction fields generalizing values with
  | nil =>
    rw [List.length_eq_zero_iff.mp hlength]
    rfl
  | cons f fields ih =>
    cases values with
    | nil => cases hlength
    | cons v values =>
      rw [checkTypes, checkType] at h
      -- the first type that differs is the error
      by_cases htype : f.primitive = v.primitive
      · rw [if_pos htype] at h
        exact List.cons_eq_cons.mpr ⟨htype.symm, ih (Nat.succ.inj hlength) h⟩
      · rw [if_neg htype] at h
        cases h

/-- `checkValues`, the check before encoding, passes exactly if the values `Matches` the fields. -/
theorem checkValues_eq_ok_iff :
    layout.checkValues values = .ok () ↔ Matches layout.fields values := by
  refine ⟨fun h => ?_, Matches.checkValues_eq⟩
  rw [checkValues] at h
  by_cases hlength : values.length = layout.fields.length
  · rw [if_pos hlength] at h
    exact matches_of_checkTypes hlength h
  · rw [if_neg hlength] at h
    cases h

/-- `encode` refuses values that do not match the fields before anything is written. -/
theorem encode_of_not_matches (h : ¬ Matches layout.fields values) (record : UInt32)
    (memory : Memory) :
    ∃ error, layout.encode record values memory = .error error memory := by
  rw [encode]
  cases hcheck : layout.checkValues values with
  | ok _ => exact absurd (checkValues_eq_ok_iff.mp hcheck) h
  | error error => exact ⟨error, rfl⟩

namespace Matches

theorem forall_mem_zip (h : Matches fields values) (p : Field → Prop) :
    (∀ pair ∈ fields.zip values, p pair.1) ↔ ∀ f ∈ fields, p f := by
  rw [← List.forall_mem_map (P := p), h.fst_zip]

/-- `List.map` over matching fields, compared pair by pair. -/
theorem map_eq_iff (h : Matches fields values) {g : Field → Value} :
    fields.map g = values ↔ ∀ pair ∈ fields.zip values, g pair.1 = pair.2 := by
  have hmap : fields.map g = (fields.zip values).map fun pair => g pair.1 :=
    (congrArg (List.map g) h.fst_zip).symm.trans List.map_map
  have hpairs : fields.map g = values ↔
      (fields.zip values).map (fun pair => g pair.1) = (fields.zip values).map Prod.snd := by
    rw [hmap, h.snd_zip]
  exact hpairs.trans List.map_inj_left

/-- Encoding stores all values, or those before the first field that does not fit, as in
`encodeFields_eq`. -/
theorem encode_eq (h : Matches layout.fields values) :
    layout.encode record values (.attached linear) =
      if ∀ f ∈ layout.fields, f.Fits record linear.bytes.size then
        .ok () (.attached (linear.putAll record (layout.fields.zip values)))
      else
        .error (.memory (.guest .fault))
          (.attached (linear.putAll record
            (storedPart record linear.bytes.size (layout.fields.zip values)))) := by
  rw [encode, h.checkValues_eq]
  exact (encodeFields_eq fun _ => h.type_eq).trans
    (if_congr (h.forall_mem_zip fun f => f.Fits record linear.bytes.size) rfl rfl)

end Matches

/-! ## Where the fields end up

`Field.Apart` is about indices modulo the range of a word, and `Field.Before` about offsets. The
length of a record is a word, so fields that are in order never come round to one another. -/

/-- No two fields of an `Orderly` layout share an index, even where the record passes the last
address and goes on at the first: it would have to be longer than the range of a word. -/
theorem Orderly.pairwise_apart (h : layout.Orderly) (record : UInt32) :
    layout.fields.Pairwise (Field.Apart record) := by
  refine h.ordered.imp_of_mem fun {f g} _ hg hbefore i hf => ?_
  have hend := h.end_le g hg
  have hsize := layout.size.toNat_lt
  have hrecord := record.toNat_lt
  intro hreaches
  unfold Field.Before at hbefore
  unfold Field.Reaches Spans at hf hreaches
  rw [toNat_address, show UInt32.size = 4294967296 from rfl] at hf hreaches
  omega

/-- `heldAt` is `valueAt` as long as the address of the field is a word. -/
theorem heldAt_eq_valueAt {f : Field} (h : record.toNat + f.offset.toNat < UInt32.size) :
    linear.heldAt record f = linear.valueAt record f := by
  rw [LinearMemory.heldAt, LinearMemory.valueAt, toNat_address, Nat.mod_eq_of_lt h]

/-- Of two fields one is `Before` the other, unless they are the same. -/
theorem Orderly.eq_or_before (h : layout.Orderly) {f g : Field} (hf : f ∈ layout.fields)
    (hg : g ∈ layout.fields) : f = g ∨ f.Before g ∨ g.Before f := by
  have hafter : layout.fields.Pairwise fun f g => f = g ∨ f.Before g ∨ g.Before f :=
    h.ordered.imp fun hbefore => .inr (.inl hbefore)
  have hbefore : layout.fields.Pairwise fun g f => f = g ∨ f.Before g ∨ g.Before f :=
    h.ordered.imp fun hbefore => .inr (.inr hbefore)
  exact List.Pairwise.forall_of_forall_of_flip (fun _ _ => .inl rfl) hafter hbefore hf hg

/-- Storing a record does not reach a field of it that begins beyond the last address: the address
wraps, and the record is too short to come that far. -/
theorem Orderly.not_reaches (h : layout.Orderly) {f g : Field} (hf : f ∈ layout.fields)
    (hg : g ∈ layout.fields) (hbeyond : UInt32.size ≤ record.toNat + f.offset.toNat) {i : Nat}
    (hi : record.toNat + f.offset.toNat ≤ i) : ¬ g.Reaches record i := by
  have hside := h.eq_or_before hf hg
  have hend := h.end_le g hg
  have hsize := layout.size.toNat_lt
  have hrecord := record.toNat_lt
  intro hreaches
  unfold Field.Reaches Spans at hreaches
  unfold Field.Before at hside
  rw [toNat_address] at hreaches
  rw [show UInt32.size = 4294967296 from rfl] at hreaches hbeyond
  -- the field itself, like any after it, is stored from the first address on, and those before it
  -- end where it begins
  rcases hside with rfl | hside | hside
  · omega
  · omega
  · omega

/-- A field that begins beyond the last address holds what it held, since by `not_reaches` nothing
was stored there. -/
theorem Orderly.valueAt_putAll_of_le (h : layout.Orderly)
    (hfitting : ∀ pair ∈ layout.fields.zip values, Fitting record linear.bytes.size pair)
    {f : Field} (hf : f ∈ layout.fields)
    (hbeyond : UInt32.size ≤ record.toNat + f.offset.toNat) :
    (linear.putAll record (layout.fields.zip values)).valueAt record f =
      linear.valueAt record f := by
  rw [LinearMemory.valueAt, LinearMemory.valueAt, (Fitting.sameOutside_putAll hfitting).slice_eq]
  rintro i hi - ⟨pair, hpair, hreaches⟩
  exact h.not_reaches hf (List.of_mem_zip hpair).1 hbeyond hi hreaches

/-! ## A refused encoding

If a field does not fit, the memory that is left behind has the `storedPart`. It is the memory of
before exactly if these fields held their values. -/

/-- `storedPart`, what an encoding has stored before it was refused, is `Fitting`. -/
theorem fitting_of_mem_storedPart (h : Matches fields values) {size : Nat}
    {pair : Field × Value} (hpair : pair ∈ storedPart record size (fields.zip values)) :
    Fitting record size pair where
  fits := by
    have hfits := List.mem_takeWhile_imp hpair
    exact of_decide_eq_true hfits
  type_eq := h.type_eq ((List.takeWhile_sublist _).mem hpair)

/-- `storedPart` makes no difference only if it was there already. -/
theorem Orderly.putAll_storedPart_eq_self_iff (h : layout.Orderly)
    (hmatch : Matches layout.fields values) :
    linear.putAll record (storedPart record linear.bytes.size (layout.fields.zip values)) = linear ↔
      ∀ pair ∈ storedPart record linear.bytes.size (layout.fields.zip values),
        linear.heldAt record pair.1 = pair.2 := by
  have hall : ((layout.fields.zip values).map Prod.fst).Pairwise (Field.Apart record) := by
    rw [hmatch.fst_zip]
    exact h.pairwise_apart record
  have hstored : ((storedPart record linear.bytes.size (layout.fields.zip values)).map
      Prod.fst).Pairwise (Field.Apart record) :=
    hall.sublist ((List.takeWhile_sublist _).map _)
  exact Fitting.putAll_eq_self_iff (fun _ => fitting_of_mem_storedPart hmatch) hstored

/-- No error of `encode` leaves a changed memory behind exactly if the values are refused, or every
field fits, or those in `storedPart`, before the first that does not fit, hold their values
already. -/
theorem encode_unchanged_iff (h : layout.Constructed) (linear : LinearMemory) (record : UInt32)
    (values : List Value) :
    (∀ error after, layout.encode record values (.attached linear) = .error error after →
        after = .attached linear) ↔
      ¬ Matches layout.fields values ∨
        (∀ f ∈ layout.fields, f.Fits record linear.bytes.size) ∨
        ∀ pair ∈ storedPart record linear.bytes.size (layout.fields.zip values),
          linear.heldAt record pair.1 = pair.2 := by
  by_cases hmatch : Matches layout.fields values
  · have hencode : layout.encode record values (.attached linear) = _ := hmatch.encode_eq
    -- values that match: encoding ends by what fits
    by_cases hfits : ∀ f ∈ layout.fields, f.Fits record linear.bytes.size
    · rw [if_pos hfits] at hencode
      constructor
      · intro _
        exact .inr (.inl hfits)
      · intro _ error after hrefused
        cases hencode.symm.trans hrefused
    · rw [if_neg hfits] at hencode
      rw [← h.orderly.putAll_storedPart_eq_self_iff hmatch]
      constructor
      · intro hclean
        have hafter := hclean _ _ hencode
        exact .inr (.inr (Memory.attached.inj hafter))
      · rintro (hnot | hall | hself) error after hrefused
        · exact absurd hmatch hnot
        · exact absurd hall hfits
        · cases hencode.symm.trans hrefused
          rw [hself]
  · -- other values are refused with memory untouched
    obtain ⟨error, hencode⟩ := encode_of_not_matches hmatch record (.attached linear)
    constructor
    · intro _
      exact .inl hmatch
    · intro _ error' after hrefused
      cases hencode.symm.trans hrefused
      rfl

/-- The second field of `prestat` does not fit, and the first one holds its value already. -/
theorem encode_unchanged_zero :
    ∃ after, RecordKind.prestat.layout.encode 12 [.u8 0, .u32 5] (.attached (.zeros 16)) =
        .error (.memory (.guest .fault)) after ∧ after = .attached (.zeros 16) :=
  ⟨_, rfl, (encode_unchanged_iff (.ofFields .aligned RecordKind.prestat.fields (by decide))
    (.zeros 16) 12 [.u8 0, .u32 5]).mpr (.inr (.inr (by decide))) _ _ rfl⟩

/-- With another value in the first field, `encode` has changed the memory once the second is
refused. -/
theorem encode_changed :
    RecordKind.prestat.layout.encode 12 [.u8 1, .u32 5] (.attached (.zeros 16)) =
        .error (.memory (.guest .fault)) (.attached ((LinearMemory.zeros 16).write 12 [1])) ∧
      (LinearMemory.zeros 16).write 12 [1] ≠ .zeros 16 := by
  refine ⟨by rfl, fun heq => ?_⟩
  have hoctet := congrArg (fun linear => linear.bytes.octetAt 12) heq
  revert hoctet
  decide

/-! ## Encoding and decoding

The two ask for different things: `Matches.encode_eq_ok_iff` for every field at its address modulo
the range of a word, `Orderly.decode_eq_ok_iff` for the record as a whole. `Agrees` says where this
makes no difference. -/

/-- Encoding accepts the addresses that decoding accepts, and what was encoded is decoded. -/
structure Agrees (layout : Layout) (linear : LinearMemory) (record : UInt32)
    (values : List Value) : Prop where
  accepts : (∃ after, layout.encode record values (.attached linear) = .ok () after) ↔
    ∃ found, layout.decode (.attached linear) record = .ok found
  returns : ∀ after, layout.encode record values (.attached linear) = .ok () after →
    layout.decode after record = .ok values

/-- `decode` asks for the whole record, padding included. -/
theorem Orderly.decode_eq_ok_iff (h : layout.Orderly) {found : List Value} :
    layout.decode (.attached linear) record = .ok found ↔
      record.toNat + layout.size.toNat ≤ linear.bytes.size ∧
        layout.fields.map (linear.valueAt record) = found := by
  rw [h.decode_eq]
  by_cases hinside : record.toNat + layout.size.toNat ≤ linear.bytes.size
  · simp [hinside]
  · simp [hinside]

/-- `encode` asks for the fields alone. -/
theorem Matches.encode_eq_ok_iff (h : Matches layout.fields values) {after : Memory} :
    layout.encode record values (.attached linear) = .ok () after ↔
      (∀ f ∈ layout.fields, f.Fits record linear.bytes.size) ∧
        after = .attached (linear.putAll record (layout.fields.zip values)) := by
  rw [h.encode_eq]
  by_cases hfits : ∀ f ∈ layout.fields, f.Fits record linear.bytes.size
  · rw [if_pos hfits]
    constructor
    · intro heq
      cases heq
      exact ⟨hfits, rfl⟩
    · rintro ⟨_, rfl⟩
      rfl
  · rw [if_neg hfits]
    constructor
    · intro heq
      cases heq
    · rintro ⟨hall, _⟩
      exact absurd hall hfits

theorem Orderly.fits (h : layout.Orderly)
    (hinside : record.toNat + layout.size.toNat ≤ linear.bytes.size) {f : Field}
    (hf : f ∈ layout.fields) : f.Fits record linear.bytes.size := by
  have hend := h.end_le f hf
  have hmod := Nat.mod_le (record.toNat + f.offset.toNat) UInt32.size
  rw [Field.Fits, toNat_address]
  omega

/-- After `putAll` a field holds its value exactly if it begins at a word, or if the value was there
before. -/
theorem Orderly.valueAt_putAll_iff (h : layout.Orderly) (hmatch : Matches layout.fields values)
    (hfits : ∀ f ∈ layout.fields, f.Fits record linear.bytes.size) {pair : Field × Value}
    (hpair : pair ∈ layout.fields.zip values) :
    (linear.putAll record (layout.fields.zip values)).valueAt record pair.1 = pair.2 ↔
      record.toNat + pair.1.offset.toNat < UInt32.size ∨
        linear.valueAt record pair.1 = pair.2 := by
  have hfitting : ∀ pair ∈ layout.fields.zip values, Fitting record linear.bytes.size pair :=
    fun pair hpair => ⟨hfits _ (List.of_mem_zip hpair).1, hmatch.type_eq hpair⟩
  by_cases hword : record.toNat + pair.1.offset.toNat < UInt32.size
  · have hapart : ((layout.fields.zip values).map Prod.fst).Pairwise (Field.Apart record) := by
      rw [hmatch.fst_zip]
      exact h.pairwise_apart record
    have hheld := Fitting.heldAt_putAll hfitting hapart pair hpair
    rw [heldAt_eq_valueAt hword] at hheld
    simp [hheld, hword]
  · rw [h.valueAt_putAll_of_le hfitting (List.of_mem_zip hpair).1 (Nat.le_of_not_lt hword)]
    simp [hword]

/-- A field that does not fit puts an end to both: encoding needs it by `encode_eq_ok_iff`, decoding
by `Orderly.fits`. -/
theorem Orderly.agrees_of_not_fits (h : layout.Orderly) (hmatch : Matches layout.fields values)
    (hout : ¬ ∀ f ∈ layout.fields, f.Fits record linear.bytes.size) :
    layout.Agrees linear record values := by
  have hencode : ∀ after, layout.encode record values (.attached linear) ≠ .ok () after :=
    fun after hafter => hout (hmatch.encode_eq_ok_iff.mp hafter).1
  have hdecode : ∀ found, layout.decode (.attached linear) record ≠ .ok found :=
    fun found hfound => hout fun f hf => h.fits (h.decode_eq_ok_iff.mp hfound).1 hf
  constructor
  · constructor
    · rintro ⟨after, hafter⟩
      exact absurd hafter (hencode after)
    · rintro ⟨found, hfound⟩
      exact absurd hfound (hdecode found)
  · intro after hafter
    exact absurd hafter (hencode after)

/-- Where every field fits `encode` succeeds, so whether it `Agrees` with `decode` is up to the
latter. -/
theorem Orderly.agrees_iff_of_fits (h : layout.Orderly) (hmatch : Matches layout.fields values)
    (hfits : ∀ f ∈ layout.fields, f.Fits record linear.bytes.size) :
    layout.Agrees linear record values ↔
      record.toNat + layout.size.toNat ≤ linear.bytes.size ∧
        ∀ pair ∈ layout.fields.zip values,
          record.toNat + pair.1.offset.toNat < UInt32.size ∨
            linear.valueAt record pair.1 = pair.2 := by
  have hencode : layout.encode record values (.attached linear) =
      .ok () (.attached (linear.putAll record (layout.fields.zip values))) :=
    hmatch.encode_eq_ok_iff.mpr ⟨hfits, rfl⟩
  constructor
  · intro hagrees
    -- decoding accepts the record, so all of it lies inside memory
    obtain ⟨found, hdecode⟩ := hagrees.accepts.mp ⟨_, hencode⟩
    have hinside := (h.decode_eq_ok_iff.mp hdecode).1
    -- what is decoded are the values, so every field holds its own
    have hreturned := (h.decode_eq_ok_iff.mp (hagrees.returns _ hencode)).2
    refine ⟨hinside, fun pair hpair => ?_⟩
    rw [← h.valueAt_putAll_iff hmatch hfits hpair]
    exact hmatch.map_eq_iff.mp hreturned pair hpair
  · rintro ⟨hinside, hvalues⟩
    have hdecode : layout.decode (.attached linear) record = .ok _ :=
      h.decode_eq_ok_iff.mpr ⟨hinside, rfl⟩
    refine ⟨⟨fun _ => ⟨_, hdecode⟩, fun _ => ⟨_, hencode⟩⟩, fun after hafter => ?_⟩
    cases hencode.symm.trans hafter
    refine h.decode_eq_ok_iff.mpr ⟨by rwa [LinearMemory.size_putAll], ?_⟩
    refine hmatch.map_eq_iff.mpr fun pair hpair => ?_
    rw [h.valueAt_putAll_iff hmatch hfits hpair]
    exact hvalues pair hpair

/-- `encode` and `decode` agree exactly if neither is possible, or if the whole record lies inside
memory and no field that begins beyond the last address is to be given another value. -/
theorem agrees_iff (h : layout.Constructed) (linear : LinearMemory) (record : UInt32)
    (hmatch : Matches layout.fields values) :
    layout.Agrees linear record values ↔
      (∃ f ∈ layout.fields, ¬ f.Fits record linear.bytes.size) ∨
        record.toNat + layout.size.toNat ≤ linear.bytes.size ∧
          ∀ pair ∈ layout.fields.zip values,
            record.toNat + pair.1.offset.toNat < UInt32.size ∨
              linear.valueAt record pair.1 = pair.2 := by
  by_cases hfits : ∀ f ∈ layout.fields, f.Fits record linear.bytes.size
  · have hnone : ¬ ∃ f ∈ layout.fields, ¬ f.Fits record linear.bytes.size := by
      rintro ⟨f, hf, hout⟩
      exact hout (hfits f hf)
    rw [h.orderly.agrees_iff_of_fits hmatch hfits, or_iff_right hnone]
  · have hsome : ∃ f ∈ layout.fields, ¬ f.Fits record linear.bytes.size := by
      simpa using hfits
    constructor
    · intro _
      exact .inl hsome
    · intro _
      exact h.orderly.agrees_of_not_fits hmatch hfits

/-- A `.aligned` record of which the padding at its end lies inside memory, too. -/
theorem agrees_padded :
    (ofFields .aligned [("a", .u32), ("b", .u8)]).Agrees (.zeros 8) 0 [.u32 1, .u8 2] :=
  (agrees_iff (.ofFields .aligned [("a", .u32), ("b", .u8)] (by decide)) (.zeros 8) 0
    (by rfl)).mpr (.inr (by decide))

/-- Where only the padding lies outside, `encode` succeeds and `decode` fails. -/
theorem not_agrees_padding :
    ¬ (ofFields .aligned [("a", .u32), ("b", .u8)]).Agrees (.zeros 5) 0 [.u32 1, .u8 2] := by
  intro hagrees
  have hdecode := hagrees.returns _ (by rfl)
  cases hdecode

end Layout

end WasiHost
