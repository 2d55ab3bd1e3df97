import Mathlib.Order.Bounds.Defs
import WasiHost.Proofs.Layout.RoundTrip

/-!
# Layouts are those of a C compiler

In an aligned layout every field begins at the least multiple of its own width that is not below the
end of the field before it, and the record ends at the least multiple of the greatest width that is
not below the end of the last field. A packed layout leaves nothing out. All this is about exact
integers; the pass that finds the offsets works in words, and no step of it overflows as long as a
word can tell the length of the record with room to spare.

* **`isLeast_ceilTo`** — an alignment step finds a least multiple.
* **`Layout.Roomy.toNat_offset`**, **`Layout.Roomy.toNat_size`** — what the pass in words finds.
* **`Layout.isCLayout_ofFields`** — the layout of any fields of admissible length.
-/

namespace WasiHost

/-! ## Least multiples

`ceilTo` is an expression in divisions. That it is the least multiple not below a bound is all that
is known of it from here on. -/

/-- The multiples of an alignment that are not below a bound. -/
def multiplesFrom (alignment bound : Nat) : Set Nat :=
  {m | alignment ∣ m ∧ bound ≤ m}

/-- `ceilTo` finds the least of `multiplesFrom`. -/
theorem isLeast_ceilTo {alignment : Nat} (h : 0 < alignment) (bound : Nat) :
    IsLeast (multiplesFrom alignment bound) (ceilTo alignment bound) := by
  refine ⟨⟨Nat.dvd_mul_left _ _, le_ceilTo h bound⟩, ?_⟩
  rintro m ⟨⟨k, rfl⟩, hbound⟩
  have hcount : (bound + alignment - 1) / alignment < k + 1 := by
    -- the quotient is below `k + 1` because the bound is at most `k` times the alignment
    rw [Nat.div_lt_iff_lt_mul h, Nat.succ_mul, Nat.mul_comm k]
    omega
  rw [ceilTo, Nat.mul_comm alignment k]
  exact Nat.mul_le_mul_right _ (Nat.le_of_lt_succ hcount)

theorem ceilTo_one (bound : Nat) : ceilTo 1 bound = bound := by
  simp [ceilTo]

namespace Field

/-- Where a field ends. -/
def stop (f : Field) : Nat :=
  f.offset.toNat + f.primitive.size.toNat

/-- Where the last of the fields ends, or where they begin if there is none. -/
def endOf (start : Nat) (fields : List Field) : Nat :=
  (fields.getLast?.map stop).getD start

/-- Where a first field goes in front, the others begin at its `Field.stop`. -/
theorem endOf_cons (start : Nat) (f : Field) (rest : List Field) :
    endOf start (f :: rest) = endOf f.stop rest := by
  rw [endOf, endOf, List.getLast?_cons]
  cases rest.getLast? <;> rfl

end Field

/-- The greatest width of the fields, or 1 if there is none. -/
def widest (fields : List FieldDecl) : Nat :=
  ((fields.map fun d => d.2.size.toNat).max?).getD 1

example : widest [] = 1 ∧ widest [("a", .u16), ("b", .i64), ("c", .u8)] = 8 := by decide

/-- The widths of the fields added up. -/
def totalWidth : List FieldDecl → Nat
  | [] => 0
  | (_, p) :: rest => p.size.toNat + totalWidth rest

namespace Packing

/-- The alignment of a record once all the fields have widened it. -/
def widenAll (packing : Packing) (alignment : Nat) (fields : List FieldDecl) : Nat :=
  fields.foldl (fun alignment d => packing.widenExact alignment d.2) alignment

theorem widenAll_pos {alignment : Nat} (h : 0 < alignment) (packing : Packing)
    (fields : List FieldDecl) : 0 < packing.widenAll alignment fields := by
  induction fields generalizing alignment with
  | nil => exact h
  | cons d rest ih => exact ih (packing.widenExact_pos h d.2)

/-- Widening by every field of an aligned record comes to the `widest` of them. -/
theorem widenAll_aligned (fields : List FieldDecl) :
    aligned.widenAll 1 fields = widest fields := by
  cases fields with
  | nil => rfl
  | cons d rest =>
    -- no width is below 1, so the first field takes the place of the 1
    have hfirst : max 1 d.2.size.toNat = d.2.size.toNat := Nat.max_eq_right d.2.size_pos
    rw [widenAll, List.foldl_cons, widest, List.map_cons, List.max?_cons', Option.getD_some,
      List.foldl_map]
    exact congrArg (rest.foldl _) hfirst

end Packing

/-- A packed record is as long as its fields together, see `totalWidth`. -/
theorem paddedFrom_packed (offset : Nat) (fields : List FieldDecl) :
    paddedFrom .packed offset 1 fields = offset + totalWidth fields := by
  induction fields generalizing offset with
  | nil => exact ceilTo_one offset
  | cons d rest ih =>
    show paddedFrom .packed (offset + d.2.size.toNat) 1 rest = _
    rw [ih, totalWidth, Nat.add_assoc]

namespace Layout

variable {packing : Packing} {offset alignment : UInt32} {fields : List FieldDecl}

/-! ## What the pass finds

`Layout.layOut` goes through the fields with the offset and the alignment so far. Both lemmas are
inductions on the fields with these two general, and `Roomy` is what each step keeps. -/

namespace Roomy

/-- Every field stands at `startExact` of the end of the fields before it. -/
theorem toNat_offset (h : Roomy packing offset alignment fields) {i : Nat} {f : Field}
    (hf : (layOut packing offset alignment fields).fields[i]? = some f) :
    f.offset.toNat = packing.startExact
      (Field.endOf offset.toNat ((layOut packing offset alignment fields).fields.take i))
      f.primitive := by
  induction fields generalizing offset alignment i with
  | nil => cases hf
  | cons d rest ih =>
    obtain ⟨name, p⟩ := d
    cases i with
    | zero =>
      cases hf
      exact h.toNat_start
    | succ i =>
      -- the first of the fields before it ends where the pass over the rest begins
      rw [layOut, List.take_succ_cons, Field.endOf_cons, Field.stop, h.toNat_start, ← h.toNat_next]
      exact ih h.tail hf

/-- The record ends at `endOf` all fields, padded to its widest alignment. -/
theorem toNat_size (h : Roomy packing offset alignment fields) :
    (layOut packing offset alignment fields).size.toNat =
      ceilTo (packing.widenAll alignment.toNat fields)
        (Field.endOf offset.toNat (layOut packing offset alignment fields).fields) := by
  induction fields generalizing offset alignment with
  | nil => exact toNat_size_layOut h
  | cons d rest ih =>
    obtain ⟨name, p⟩ := d
    rw [layOut, Field.endOf_cons, Field.stop, h.toNat_start, ← h.toNat_next]
    -- the alignment of the rest is the one that the first field has widened
    have hrest := ih h.tail
    rwa [toNat_widen] at hrest

end Roomy

/-- `Layout.layOut` keeps the names and the types of the fields, and their order. -/
theorem decl_layOut (packing : Packing) (offset alignment : UInt32) (fields : List FieldDecl) :
    (layOut packing offset alignment fields).fields.map (fun f => (f.name, f.primitive)) =
      fields := by
  induction fields generalizing offset alignment with
  | nil => rfl
  | cons d rest ih => exact congrArg (d :: ·) (ih _ _)

/-- The layout of the declared fields is the one that a C compiler gives them. -/
structure IsCLayout (packing : Packing) (fields : List FieldDecl) (layout : Layout) : Prop where
  declared : layout.fields.map (fun f => (f.name, f.primitive)) = fields
  ordered : layout.fields.Pairwise Field.Before
  inside : ∀ f ∈ layout.fields, f.stop ≤ layout.size.toNat
  packed : packing = .packed →
    (∀ i f, layout.fields[i]? = some f →
      f.offset.toNat = Field.endOf 0 (layout.fields.take i)) ∧
    layout.size.toNat = totalWidth fields
  aligned : packing = .aligned →
    (∀ i f, layout.fields[i]? = some f →
      IsLeast (multiplesFrom f.primitive.size.toNat (Field.endOf 0 (layout.fields.take i)))
        f.offset.toNat) ∧
    IsLeast (multiplesFrom (widest fields) (Field.endOf 0 layout.fields)) layout.size.toNat

/-- Octets are read if there are as many as the record is long, and only then are they looked at. -/
structure ReadsWhole (layout : Layout) : Prop where
  refused : ∀ bytes : Bytes, bytes.length ≠ layout.size.toNat →
    layout.decodeBytes bytes = .error (.sizeMismatch layout.size bytes.length)
  read : ∀ bytes : Bytes, bytes.length = layout.size.toNat →
    (∀ f ∈ layout.fields, f.stop ≤ bytes.length ∧
      decodeValue f.primitive (Field.cut f bytes) = .ok (f.valueIn bytes)) ∧
    layout.decodeBytes bytes = .ok (layout.fields.map fun f => f.valueIn bytes)

/-- With the fields in order inside the record, octets as many as `Layout.size` have all of them. -/
theorem Orderly.readsWhole {layout : Layout} (h : layout.Orderly) : layout.ReadsWhole where
  refused _ hlength := if_neg hlength
  read bytes hlength := by
    refine ⟨fun f hf => ?_, decodeBytes_eq h hlength⟩
    have hstop : f.stop ≤ bytes.length := hlength ▸ h.end_le f hf
    exact ⟨hstop, decodeValue_eq (length_cut hstop)⟩

/-- Fields whose `paddedSize` is admissible are laid out without an overflow, as a C compiler lays
them out. A record of the layout `ReadsWhole`: it is read exactly from as many octets as it is
long. -/
theorem isCLayout_ofFields (packing : Packing) (fields : List FieldDecl)
    (hlength : paddedSize packing fields ≤ longestRecord) :
    layOut? packing 0 1 fields = some (ofFields packing fields) ∧
      IsCLayout packing fields (ofFields packing fields) ∧
      (ofFields packing fields).size.toNat = paddedSize packing fields ∧
      (ofFields packing fields).ReadsWhole := by
  have hroom := roomy_start hlength
  have horderly : (ofFields packing fields).Orderly :=
    Built.orderly (.ofFields packing fields hlength)
  have hpadded : (ofFields packing fields).size.toNat = paddedSize packing fields :=
    toNat_size_layOut hroom
  refine ⟨hroom.layOut?_eq, ⟨decl_layOut _ _ _ _, horderly.ordered, horderly.end_le, ?_, ?_⟩,
    hpadded, horderly.readsWhole⟩
  · -- packed: every field begins where the one before it ends
    rintro rfl
    exact ⟨fun i f hf => hroom.toNat_offset hf,
      hpadded.trans ((paddedFrom_packed 0 fields).trans (Nat.zero_add _))⟩
  · -- aligned: the offsets and the length are values of `ceilTo`
    rintro rfl
    refine ⟨fun i f hf => ?_, ?_⟩
    · rw [hroom.toNat_offset hf]
      exact isLeast_ceilTo f.primitive.size_pos _
    · have hpos : 0 < Packing.aligned.widenAll 1 fields :=
        Packing.aligned.widenAll_pos Nat.one_pos _
      rw [← Packing.widenAll_aligned, ofFields, hroom.toNat_size]
      exact isLeast_ceilTo hpos _

/-- Three fields, two of them named `a`, with padding between them and at the end. -/
theorem isCLayout_padded :
    IsCLayout .aligned [("a", .u8), ("b", .i64), ("a", .i16)]
      (ofFields .aligned [("a", .u8), ("b", .i64), ("a", .i16)]) :=
  (isCLayout_ofFields .aligned [("a", .u8), ("b", .i64), ("a", .i16)] (by decide)).2.1

end Layout

end WasiHost
