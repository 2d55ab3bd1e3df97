import WasiHost.Layout.Basic
import WasiHost.Proofs.Layout.Value
import WasiHost.Proofs.Memory.Access

/-!
# Where fields are placed

A layout gives offsets in one pass, in words. In exact integers the pass can only go forward: a
field begins at or after the end of the one before it, and the record ends at or after the end of
the last field. As long as the length of the record, taken in exact integers, leaves room for one
more alignment step, no word on the way overflows, so the same is true of the words.

* **`paddedSize`** — the length of a record in exact integers.
* **`Layout.toNat_alignUp`** — one step in words, if there is room for it.
* **`Layout.Orderly`** — the fields stand one after the other inside the record.
* **`Layout.layOut?`** — the pass that stops at the first step that leaves the range of a word.
* **`Layout.Constructed.orderly`** — without such a step the fields of a layout are in order.
* **`Layout.Built.constructed`** — and there is none in a layout of admissible length.
-/

namespace WasiHost

/-! ## In exact integers

The pass with nothing in the way: `ceilTo` for the alignment step, `paddedFrom` for all that is left
of a record. It never goes back (`le_paddedFrom`). -/

/-- The least multiple of an alignment that is not below an offset. -/
def ceilTo (alignment offset : Nat) : Nat :=
  (offset + alignment - 1) / alignment * alignment

theorem le_ceilTo {alignment : Nat} (h : 0 < alignment) (offset : Nat) :
    offset ≤ ceilTo alignment offset := by
  have hrest := Nat.mod_lt (offset + alignment - 1) h
  have hsum := Nat.div_add_mod (offset + alignment - 1) alignment
  rw [Nat.mul_comm] at hsum
  unfold ceilTo
  omega

theorem ceilTo_le (alignment offset : Nat) : ceilTo alignment offset ≤ offset + alignment - 1 :=
  Nat.div_mul_le_self _ _

namespace Packing

/-- Where a field of a type stands if all before it end at an offset. -/
def startExact (packing : Packing) (offset : Nat) (p : Primitive) : Nat :=
  match packing with
  | packed => offset
  | aligned => ceilTo p.size.toNat offset

/-- The alignment of a record that has a field of a type besides others. -/
def widenExact (packing : Packing) (alignment : Nat) (p : Primitive) : Nat :=
  match packing with
  | packed => alignment
  | aligned => max alignment p.size.toNat

theorem le_startExact (packing : Packing) (offset : Nat) (p : Primitive) :
    offset ≤ packing.startExact offset p := by
  cases packing with
  | packed => exact Nat.le_refl _
  | aligned => exact le_ceilTo p.size_pos offset

theorem widenExact_pos {alignment : Nat} (h : 0 < alignment) (packing : Packing) (p : Primitive) :
    0 < packing.widenExact alignment p := by
  cases packing with
  | packed => exact h
  | aligned => exact Nat.lt_of_lt_of_le h (Nat.le_max_left _ _)

theorem widenExact_le_eight {alignment : Nat} (h : alignment ≤ 8) (packing : Packing)
    (p : Primitive) : packing.widenExact alignment p ≤ 8 := by
  cases packing with
  | packed => exact h
  | aligned => exact Nat.max_le.mpr ⟨h, p.size_le_eight⟩

end Packing

/-- The length of a record of which the fields up to `offset` are laid out, padding at its end
included. -/
def paddedFrom (packing : Packing) (offset alignment : Nat) : List FieldDecl → Nat
  | [] => ceilTo alignment offset
  | (_, p) :: rest =>
    paddedFrom packing (packing.startExact offset p + p.size.toNat)
      (packing.widenExact alignment p) rest

/-- The length of a record, padding at its end included. -/
def paddedSize (packing : Packing) (fields : List FieldDecl) : Nat :=
  paddedFrom packing 0 1 fields

/-- The pass goes forward: by `le_startExact` no field takes the offset back. -/
theorem le_paddedFrom {packing : Packing} {offset alignment : Nat} (h : 0 < alignment)
    (fields : List FieldDecl) : offset ≤ paddedFrom packing offset alignment fields := by
  induction fields generalizing offset alignment with
  | nil => exact le_ceilTo h offset
  | cons field rest ih =>
    obtain ⟨name, p⟩ := field
    calc offset
      _ ≤ packing.startExact offset p := packing.le_startExact offset p
      _ ≤ packing.startExact offset p + p.size.toNat := Nat.le_add_right _ _
      _ ≤ _ := ih (packing.widenExact_pos h p)

/-! ## In words

`Roomy` is what the pass in words keeps: an alignment from 1 to 8, and fields left whose
`paddedFrom` stays below `longestRecord`. Each step then is the step in exact integers, by
`toNat_alignUp`, and `Roomy.tail` takes the rest of the fields along. -/

/-- Above this length an alignment step may leave the range of a word. -/
def longestRecord : Nat := UInt32.size - 1 - 8

/-- Below `longestRecord` there is room for one more alignment step. -/
theorem add_eight_lt {length : Nat} (h : length ≤ longestRecord) : length + 8 < UInt32.size := by
  have hmax : longestRecord + 9 = UInt32.size := rfl
  omega

namespace Layout

variable {packing : Packing} {offset alignment : UInt32}

/-- In `alignUp` the 1 is taken off a sum that is not 0. -/
theorem one_le_add (hpos : 0 < alignment.toNat)
    (hroom : offset.toNat + alignment.toNat < UInt32.size) : 1 ≤ offset + alignment := by
  rw [UInt32.le_iff_toNat_le, toNat_add_of_lt hroom]
  exact Nat.le_trans hpos (Nat.le_add_left _ _)

/-- `alignUp` in words is `ceilTo`, as long as a whole alignment fits above `offset`. -/
theorem toNat_alignUp (hpos : 0 < alignment.toNat)
    (hroom : offset.toNat + alignment.toNat < UInt32.size) :
    (alignUp offset alignment).toNat = ceilTo alignment.toNat offset.toNat := by
  have hless : (offset + alignment - 1).toNat = offset.toNat + alignment.toNat - 1 := by
    rw [UInt32.toNat_sub_of_le _ _ (one_le_add hpos hroom), toNat_add_of_lt hroom]
    rfl
  -- the product is below the sum, so it does not overflow either
  have hceil : ceilTo alignment.toNat offset.toNat < UInt32.size := by
    refine Nat.lt_of_le_of_lt (ceilTo_le _ _) ?_
    omega
  rw [alignUp, UInt32.toNat_mul, UInt32.toNat_div, hless]
  exact Nat.mod_eq_of_lt hceil

/-- `start` in words is `startExact` up to `longestRecord`. -/
theorem toNat_start (p : Primitive) (hroom : offset.toNat ≤ longestRecord) :
    (start packing offset p).toNat = packing.startExact offset.toNat p := by
  cases packing with
  | packed => rfl
  | aligned =>
    have hsize := p.size_le_eight
    have hlt := add_eight_lt hroom
    exact toNat_alignUp p.size_pos (by omega)

/-- `widen` in words is `widenExact`, without any condition. -/
theorem toNat_widen (p : Primitive) :
    (widen packing alignment p).toNat = packing.widenExact alignment.toNat p := by
  cases packing with
  | packed => rfl
  | aligned =>
    show (if alignment ≤ p.size then p.size else alignment).toNat = max alignment.toNat p.size.toNat
    split
    · -- the wider of the two is the type
      next h => exact (Nat.max_eq_right (UInt32.le_iff_toNat_le.mp h)).symm
    · next h => exact (Nat.max_eq_left (Nat.le_of_not_le (mt UInt32.le_iff_toNat_le.mpr h))).symm

end Layout

/-- A field ends before another one begins. -/
def Field.Before (f g : Field) : Prop :=
  f.offset.toNat + f.primitive.size.toNat ≤ g.offset.toNat

namespace Layout

/-- The fields stand one after the other inside the record, none before `offset`. -/
structure OrderlyFrom (offset : Nat) (layout : Layout) : Prop where
  ordered : layout.fields.Pairwise Field.Before
  begin_le : ∀ f ∈ layout.fields, offset ≤ f.offset.toNat
  end_le : ∀ f ∈ layout.fields, f.offset.toNat + f.primitive.size.toNat ≤ layout.size.toNat

/-- The fields stand one after the other inside the record. -/
abbrev Orderly (layout : Layout) : Prop :=
  layout.OrderlyFrom 0

/-- A pass that has come to `offset` has room for the fields that are left. -/
structure Roomy (packing : Packing) (offset alignment : UInt32) (fields : List FieldDecl) :
    Prop where
  alignment_pos : 0 < alignment.toNat
  alignment_le : alignment.toNat ≤ 8
  padded_le : paddedFrom packing offset.toNat alignment.toNat fields ≤ longestRecord

/-- The pass begins with room for all fields if their `paddedSize` is admissible. -/
theorem roomy_start {fields : List FieldDecl} (h : paddedSize packing fields ≤ longestRecord) :
    Roomy packing 0 1 fields :=
  ⟨by decide, by decide, h⟩

namespace Roomy

variable {name : String} {p : Primitive} {fields rest : List FieldDecl}

/-- `Roomy` leaves room for one more field and its alignment: 8 octets. -/
theorem offset_lt (h : Roomy packing offset alignment fields) :
    offset.toNat + 8 < UInt32.size :=
  add_eight_lt (Nat.le_trans (le_paddedFrom h.alignment_pos fields) h.padded_le)

/-- `Roomy` leaves room for the first field: whatever comes after ends before the record does. -/
theorem stop_lt (h : Roomy packing offset alignment ((name, p) :: rest)) :
    packing.startExact offset.toNat p + p.size.toNat + 8 < UInt32.size :=
  add_eight_lt (Nat.le_trans
    (le_paddedFrom (packing.widenExact_pos h.alignment_pos p) rest) h.padded_le)

/-- In a `Roomy` pass the first field begins where `startExact` has it. -/
theorem toNat_start (h : Roomy packing offset alignment ((name, p) :: rest)) :
    (start packing offset p).toNat = packing.startExact offset.toNat p :=
  Layout.toNat_start p (Nat.le_trans (le_paddedFrom h.alignment_pos _) h.padded_le)

theorem toNat_next (h : Roomy packing offset alignment ((name, p) :: rest)) :
    (start packing offset p + p.size).toNat =
      packing.startExact offset.toNat p + p.size.toNat := by
  have hlt := h.stop_lt
  have hstart := h.toNat_start
  rw [toNat_add_of_lt (by omega), hstart]

/-- One step of the pass: what is left is `Roomy` from the end of the first field on. -/
theorem tail (h : Roomy packing offset alignment ((name, p) :: rest)) :
    Roomy packing (start packing offset p + p.size) (widen packing alignment p) rest where
  alignment_pos := by
    rw [toNat_widen]
    exact packing.widenExact_pos h.alignment_pos p
  alignment_le := by
    rw [toNat_widen]
    exact packing.widenExact_le_eight h.alignment_le p
  padded_le := by
    rw [toNat_widen, h.toNat_next]
    exact h.padded_le

end Roomy

/-- A `Roomy` pass in words ends where `paddedFrom` does. By induction on `fields`, with
`Roomy.tail` as the step. -/
theorem toNat_size_layOut {fields : List FieldDecl} (h : Roomy packing offset alignment fields) :
    (layOut packing offset alignment fields).size.toNat =
      paddedFrom packing offset.toNat alignment.toNat fields := by
  induction fields generalizing offset alignment with
  | nil =>
    -- no field is left, and the record is padded at its end
    have hlt := h.offset_lt
    have hle := h.alignment_le
    exact toNat_alignUp h.alignment_pos (by omega)
  | cons field rest ih =>
    obtain ⟨name, p⟩ := field
    rw [layOut, paddedFrom, ih h.tail, toNat_widen, h.toNat_next]

/-- A field goes in front of a layout that is `OrderlyFrom` its end. -/
theorem OrderlyFrom.cons {later : Layout} {f : Field} {begin : Nat}
    (h : later.OrderlyFrom (f.offset.toNat + f.primitive.size.toNat))
    (hbegin : begin ≤ f.offset.toNat)
    (hend : f.offset.toNat + f.primitive.size.toNat ≤ later.size.toNat) :
    OrderlyFrom begin { later with fields := f :: later.fields } where
  ordered := List.pairwise_cons.mpr ⟨h.begin_le, h.ordered⟩
  begin_le := by
    refine List.forall_mem_cons.mpr ⟨hbegin, fun g hg => ?_⟩
    have hafter := h.begin_le g hg
    omega
  end_le := List.forall_mem_cons.mpr ⟨hend, h.end_le⟩

/-! ## The pass with every step checked

`layOut?` is `layOut` with an overflow of any step seen. The two agree wherever the checked one ends
(`layOut?_eq_some`), and it does end where there is room (`Roomy.layOut?_eq`). -/

/-- The difference of two words, if it is not negative. -/
def subWords? (a b : UInt32) : Option UInt32 :=
  if b ≤ a then some (a - b) else none

/-- The quotient of two words, if there is one. -/
def divWords? (a b : UInt32) : Option UInt32 :=
  if b = 0 then none else some (a / b)

/-- The product of two words, if it fits in a word. -/
def mulWords? (a b : UInt32) : Option UInt32 :=
  if a.toNat * b.toNat < UInt32.size then some (a * b) else none

/-- The least multiple of `alignment` that is not below `offset`, unless a step overflows. -/
def alignUp? (offset alignment : UInt32) : Option UInt32 := do
  let sum ← LinearMemory.addWords? offset alignment
  let less ← subWords? sum 1
  let count ← divWords? less alignment
  mulWords? count alignment

/-- Where a field of the given type stands, unless a step overflows. -/
def start? (packing : Packing) (offset : UInt32) (p : Primitive) : Option UInt32 :=
  match packing with
  | .packed => some offset
  | .aligned => alignUp? offset p.size

/-- Lays out fields from `offset` on, unless a step overflows. -/
def layOut? (packing : Packing) (offset alignment : UInt32) : List FieldDecl → Option Layout
  | [] => do
    let size ← alignUp? offset alignment
    pure { fields := [], size := size }
  | (name, p) :: rest => do
    let here ← start? packing offset p
    let next ← LinearMemory.addWords? here p.size
    let later ← layOut? packing next (widen packing alignment p) rest
    pure { later with fields := { name := name, primitive := p, offset := here } :: later.fields }

variable {fields : List FieldDecl}

/-- With room for the sum, no step of `alignUp?` overflows. -/
theorem alignUp?_eq (hpos : 0 < alignment.toNat)
    (hroom : offset.toNat + alignment.toNat < UInt32.size) :
    alignUp? offset alignment = some (alignUp offset alignment) := by
  have hless := one_le_add hpos hroom
  have hzero : alignment ≠ 0 := by
    rintro rfl
    exact absurd hpos (by decide)
  -- the quotient times the divisor is not above the dividend, which is a word
  have hproduct : ((offset + alignment - 1) / alignment).toNat * alignment.toNat <
      UInt32.size := by
    rw [UInt32.toNat_div]
    exact Nat.lt_of_le_of_lt (Nat.div_mul_le_self _ _) (UInt32.toNat_lt _)
  simp only [alignUp?, LinearMemory.addWords?, subWords?, divWords?, mulWords?, if_pos hroom,
    if_pos hless, if_neg hzero, if_pos hproduct, Option.bind_eq_bind, Option.bind_some]
  rfl

namespace Roomy

/-- In a `Roomy` pass `start?`, which checks the sum, succeeds. -/
theorem start?_eq {name : String} {p : Primitive} {rest : List FieldDecl}
    (h : Roomy packing offset alignment ((name, p) :: rest)) :
    start? packing offset p = some (start packing offset p) := by
  cases packing with
  | packed => rfl
  | aligned =>
    have hlt := h.offset_lt
    have hsize := p.size_le_eight
    exact alignUp?_eq p.size_pos (by omega)

/-- `layOut?`, the pass with every step checked, is `layOut` if it is `Roomy`. -/
theorem layOut?_eq (h : Roomy packing offset alignment fields) :
    layOut? packing offset alignment fields = some (layOut packing offset alignment fields) := by
  induction fields generalizing offset alignment with
  | nil =>
    have hlt := h.offset_lt
    have hle := h.alignment_le
    rw [layOut?, alignUp?_eq h.alignment_pos (by omega)]
    rfl
  | cons d rest ih =>
    obtain ⟨name, p⟩ := d
    have hnext : LinearMemory.addWords? (start packing offset p) p.size =
        some (start packing offset p + p.size) := by
      have hlt := h.stop_lt
      rw [LinearMemory.addWords?_eq_some_iff, h.toNat_next, h.toNat_start]
      exact ⟨by omega, rfl⟩
    simp only [layOut?, h.start?_eq, hnext, ih h.tail, Option.bind_eq_bind, Option.bind_some]
    rfl

end Roomy

/-- If no step overflows, `alignUp?` is `alignUp` and does not go back. -/
theorem alignUp?_eq_some {stop : UInt32} (hpos : 0 < alignment.toNat)
    (h : alignUp? offset alignment = some stop) :
    stop = alignUp offset alignment ∧ offset.toNat ≤ stop.toNat := by
  have hroom : offset.toNat + alignment.toNat < UInt32.size := by
    by_contra hover
    simp [alignUp?, LinearMemory.addWords?, if_neg hover] at h
  rw [alignUp?_eq hpos hroom] at h
  obtain rfl := Option.some.inj h
  refine ⟨rfl, ?_⟩
  rw [toNat_alignUp hpos hroom]
  exact le_ceilTo hpos _

/-- If no step overflows, `start?` is `start` and does not go back. -/
theorem start?_eq_some {here : UInt32} {p : Primitive} (h : start? packing offset p = some here) :
    here = start packing offset p ∧ offset.toNat ≤ here.toNat := by
  cases packing with
  | packed =>
    obtain rfl := Option.some.inj h
    exact ⟨rfl, Nat.le_refl _⟩
  | aligned => exact alignUp?_eq_some p.size_pos h

/-- A pass of which no step overflows is `layOut`, and goes forward. -/
theorem layOut?_eq_some {layout : Layout} (hpos : 0 < alignment.toNat)
    (h : layOut? packing offset alignment fields = some layout) :
    layout = layOut packing offset alignment fields ∧ layout.OrderlyFrom offset.toNat ∧
      offset.toNat ≤ layout.size.toNat := by
  induction fields generalizing offset alignment layout with
  | nil =>
    simp only [layOut?, Option.bind_eq_bind, Option.bind_eq_some_iff] at h
    obtain ⟨size, hsize, hlayout⟩ := h
    obtain rfl := Option.some.inj hlayout
    obtain ⟨rfl, hle⟩ := alignUp?_eq_some hpos hsize
    exact ⟨rfl, ⟨.nil, nofun, nofun⟩, hle⟩
  | cons d rest ih =>
    obtain ⟨name, p⟩ := d
    simp only [layOut?, Option.bind_eq_bind, Option.bind_eq_some_iff] at h
    obtain ⟨here, hhere, next, hnext, later, hlater, hlayout⟩ := h
    obtain rfl := Option.some.inj hlayout
    -- the steps of the first field: its start, then its end
    obtain ⟨rfl, hbegin⟩ := start?_eq_some hhere
    obtain ⟨hroom, hsum⟩ := LinearMemory.addWords?_eq_some_iff.mp hnext
    obtain rfl : next = start packing offset p + p.size :=
      UInt32.toNat_inj.mp (hsum.trans (toNat_add_of_lt hroom).symm)
    have hwiden : 0 < (widen packing alignment p).toNat := by
      rw [toNat_widen]
      exact packing.widenExact_pos hpos p
    -- the rest stands behind the end of the first field
    obtain ⟨rfl, horderly, hle⟩ := ih hwiden hlater
    rw [hsum] at horderly hle
    exact ⟨rfl, horderly.cons hbegin hle, Nat.le_trans hbegin (Nat.le_of_add_right_le hle)⟩

/-! ## Layouts that are built

A layout is built from declared fields, or from fields whose types are spelled out. What is asked of
the fields differs: `Built` asks for room to spare, `Constructed` for a pass of which no step
overflows, and by `Built.constructed` the first is the stronger. -/

/-- `Layout.parse` is `Layout.ofFields` of the fields whose types can be read. -/
theorem parse_eq_ok_iff {spelled : List (String × String)} {layout : Layout} :
    parse packing spelled = .ok layout ↔
      ∃ fields, readTypes spelled = .ok fields ∧ layout = ofFields packing fields := by
  unfold parse
  cases readTypes spelled <;> simp [Except.map, eq_comm]

/-- The layouts that are built from declared fields, or from fields whose types are spelled out, if
the packing and the fields are of a kind. -/
inductive BuiltOf (kind : Packing → List FieldDecl → Prop) : Layout → Prop where
  | ofFields (packing : Packing) (fields : List FieldDecl) (hkind : kind packing fields) :
      BuiltOf kind (ofFields packing fields)
  | parse (packing : Packing) (spelled : List (String × String)) (fields : List FieldDecl)
      (layout : Layout) (hread : readTypes spelled = .ok fields) (hkind : kind packing fields)
      (hparse : Layout.parse packing spelled = .ok layout) : BuiltOf kind layout

namespace BuiltOf

variable {kind wider : Packing → List FieldDecl → Prop} {layout : Layout}

/-- Either way a layout is `ofFields` of some fields of the kind. -/
theorem exists_fields (h : BuiltOf kind layout) :
    ∃ packing fields, layout = Layout.ofFields packing fields ∧ kind packing fields := by
  cases h with
  | ofFields packing fields hkind => exact ⟨packing, fields, rfl, hkind⟩
  | parse packing spelled fields layout hread hkind hparse =>
    obtain ⟨fields', hread', rfl⟩ := parse_eq_ok_iff.mp hparse
    cases hread.symm.trans hread'
    exact ⟨packing, fields, rfl, hkind⟩

theorem mono (h : BuiltOf kind layout)
    (hwider : ∀ packing fields, kind packing fields → wider packing fields) :
    BuiltOf wider layout := by
  cases h with
  | ofFields packing fields hkind => exact .ofFields packing fields (hwider _ _ hkind)
  | parse packing spelled fields layout hread hkind hparse =>
    exact .parse packing spelled fields layout hread (hwider _ _ hkind) hparse

end BuiltOf

/-- The layouts that are built of fields of which a word can tell the length with room to spare. -/
abbrev Built (layout : Layout) : Prop :=
  BuiltOf (fun packing fields => paddedSize packing fields ≤ longestRecord) layout

/-- The layouts that are built by a pass of which no step overflows. -/
abbrev Constructed (layout : Layout) : Prop :=
  BuiltOf (fun packing fields => (layOut? packing 0 1 fields).isSome) layout

/-- A `Built` layout is `Constructed`: with room to spare no step overflows. -/
theorem Built.constructed {layout : Layout} (h : layout.Built) : layout.Constructed := by
  refine h.mono fun packing fields hlength => ?_
  rw [(roomy_start hlength).layOut?_eq]
  rfl

/-- All it takes for the fields of a layout to stand one after the other inside the record is that
no step of `layOut?` overflows. -/
theorem Constructed.orderly {layout : Layout} (h : layout.Constructed) : layout.Orderly := by
  obtain ⟨packing, fields, rfl, hpass⟩ := h.exists_fields
  obtain ⟨layout, hlayout⟩ := Option.isSome_iff_exists.mp hpass
  obtain ⟨rfl, horderly, -⟩ := layOut?_eq_some (by decide) hlayout
  exact horderly

theorem Built.orderly {layout : Layout} (h : layout.Built) : layout.Orderly :=
  h.constructed.orderly

end Layout

end WasiHost
