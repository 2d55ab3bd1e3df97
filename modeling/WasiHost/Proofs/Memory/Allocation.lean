import WasiHost.Proofs.Layout.Offsets
import WasiHost.Proofs.Memory.Scatter

/-!
# The ranges an allocator hands out

The allocator of a memory keeps one address, its top. A range that is asked for begins at the least
multiple of eight not below the top, if it fits in the memory and its end is a word, and its end is
the new top. So the ranges stand one after the other, and what is put into one of them is not
touched when others are handed out and filled. A call that is refused leaves memory and top as they
are, so it might as well not have been made.

* **`LinearMemory.allocate_of_room`**, **`LinearMemory.allocate_of_no_room`** — what the allocator
  does, in exact integers.
* **`HeapCall`**, **`Memory.ask`** — the calls that have it hand out a range.
* **`Grants`**, **`Memory.ask_cases`** — what a call does that is served, and that any other changes
  nothing.
* **`heap_hands_out_apart`** — any sequence of calls.
-/

namespace WasiHost

/-! ## The allocator

What `LinearMemory.allocate` does, in exact integers. Its three places to fail (rounding up, adding
the length, comparing with the size) are one condition, `LinearMemory.HasRoom`. -/

namespace LinearMemory

variable {linear : LinearMemory} {top address size : UInt32}

/-- The mask takes away what an address is beyond a multiple of eight. -/
theorem toNat_and_not_seven (address : UInt32) :
    (address &&& ~~~7).toNat = address.toNat / 8 * 8 := by
  have hmask : (~~~7 : UInt32).toNat = (2 ^ 29 - 1) <<< 3 := by decide
  have heights : address.toNat / 8 * 8 = (address.toNat >>> 3) <<< 3 := by
    rw [Nat.shiftLeft_eq, Nat.shiftRight_eq_div_pow]
  rw [UInt32.toNat_and, hmask, heights]
  apply Nat.eq_of_testBit_eq
  intro i
  rw [Nat.testBit_and, Nat.testBit_shiftLeft, Nat.testBit_shiftLeft, Nat.testBit_shiftRight,
    Nat.testBit_two_pow_sub_one]
  -- the lowest three bits go, those above stay, and there are none from the 32nd on
  by_cases hlow : 3 ≤ i
  · by_cases hhigh : i < 32
    · have hmasked : i - 3 < 29 := by omega
      simp [hlow, hmasked]
    · have hword : address.toNat < 2 ^ i :=
        Nat.lt_of_lt_of_le address.toNat_lt (Nat.pow_le_pow_right (by decide) (by omega))
      simp [hlow, Nat.testBit_lt_two_pow hword]
  · simp [hlow]

/-- Rounding up to a multiple of eight is refused only if the mask is applied to a sum that is no
word. Where it is not, the result is the least multiple, `ceilTo`. -/
theorem alignEight?_eq_some_iff :
    alignEight? top = some address ↔
      top.toNat + 7 < UInt32.size ∧ address.toNat = ceilTo 8 top.toNat := by
  have hseven : (7 : UInt32).toNat = 7 := rfl
  rw [alignEight?, Option.map_eq_some_iff]
  constructor
  · rintro ⟨sum, hsum, rfl⟩
    rw [LinearMemory.addWords?_eq_some_iff, hseven] at hsum
    refine ⟨hsum.1, ?_⟩
    rw [toNat_and_not_seven, hsum.2]
    rfl
  · rintro ⟨hlt, haddress⟩
    refine ⟨top + 7, if_pos hlt, ?_⟩
    rw [← UInt32.toNat_inj, toNat_and_not_seven, toNat_add_of_lt hlt, haddress]
    rfl

/-- Whether a range of some length fits behind an address, at a multiple of eight. -/
def HasRoom (memory : LinearMemory) (top length : Nat) : Prop :=
  ceilTo 8 top + length < UInt32.size ∧ ceilTo 8 top + length ≤ memory.bytes.size

instance (memory : LinearMemory) (top length : Nat) : Decidable (memory.HasRoom top length) :=
  inferInstanceAs (Decidable (_ ∧ _))

/-- A sum that is a word is one on the way, too: a multiple of eight is not among the seven words
below the end. -/
theorem add_seven_lt_of_ceilTo {n : Nat} (h : ceilTo 8 n < UInt32.size) : n + 7 < UInt32.size := by
  have hsize : UInt32.size = 8 * 536870912 := rfl
  unfold ceilTo at h
  omega

/-- With room, `allocate` gives the least multiple of eight not below the top, and the end of the
range is the new top. -/
theorem allocate_of_room (htop : linear.heapTop = some top)
    (hroom : linear.HasRoom top.toNat size.toNat) :
    ∃ address stop, linear.allocate size = .ok (address, { linear with heapTop := some stop }) ∧
      address.toNat = ceilTo 8 top.toNat ∧ stop.toNat = address.toNat + size.toNat := by
  obtain ⟨hword, hfits⟩ := hroom
  -- the checks in words pass, since the exact numbers are words
  have haligned : ceilTo 8 top.toNat < UInt32.size := by omega
  have hat : (UInt32.ofNat (ceilTo 8 top.toNat)).toNat = ceilTo 8 top.toNat :=
    UInt32.toNat_ofNat_of_lt' haligned
  have halign : alignEight? top = some (UInt32.ofNat (ceilTo 8 top.toNat)) :=
    alignEight?_eq_some_iff.mpr ⟨add_seven_lt_of_ceilTo haligned, hat⟩
  have hsum : (UInt32.ofNat (ceilTo 8 top.toNat)).toNat + size.toNat < UInt32.size := by
    rwa [hat]
  have hstop := toNat_add_of_lt hsum
  refine ⟨_, UInt32.ofNat (ceilTo 8 top.toNat) + size, ?_, hat, hstop⟩
  have hadd : addWords? (UInt32.ofNat (ceilTo 8 top.toNat)) size =
      some (UInt32.ofNat (ceilTo 8 top.toNat) + size) := if_pos hsum
  have hle : (UInt32.ofNat (ceilTo 8 top.toNat) + size).toNat ≤ linear.bytes.size := by
    rwa [hstop, hat]
  simp only [allocate, htop, halign, hadd, if_pos hle]

/-- Without room, whichever of the three steps is the one that fails, the answer is `noMem`. -/
theorem allocate_of_no_room (htop : linear.heapTop = some top)
    (hroom : ¬ linear.HasRoom top.toNat size.toNat) :
    linear.allocate size = .error (.guest .noMem) := by
  simp only [allocate, htop]
  cases halign : alignEight? top with
  | none => rfl
  | some address =>
    have haddress := (alignEight?_eq_some_iff.mp halign).2
    simp only
    cases hadd : addWords? address size with
    | none => rfl
    | some stop =>
      obtain ⟨hlt, hstop⟩ := LinearMemory.addWords?_eq_some_iff.mp hadd
      -- the end is a word, so it lies outside the memory
      simp only
      apply if_neg
      intro hle
      rw [hstop] at hle
      rw [haddress] at hlt hle
      exact hroom ⟨hlt, hle⟩

end LinearMemory

/-! ## Calls

A call is served by `Memory.ask`, and calls one after the other by `Memory.askAll`. What they answer
and which ranges they are given are functions of their own, since only some of the calls are given
one. -/

/-- A call that has the allocator of a memory hand out a range. -/
inductive HeapCall where
  | allocate (size : UInt32)
  /-- Octets are put into the range that is handed out. -/
  | place (data : Bytes)

/-- How long a range a call asks for. -/
def HeapCall.length : HeapCall → Nat
  | allocate size => size.toNat
  | place data => data.length

/-- A range that was handed out. -/
structure Grant where
  start : UInt32
  length : Nat

def Grant.stop (grant : Grant) : Nat :=
  grant.start.toNat + grant.length

/-- Where the last of the ranges ends, if they are handed out from a base on. -/
def Grant.reached (base : Nat) : List Grant → Nat
  | [] => base
  | grant :: rest => reached grant.stop rest

namespace Memory

/-- What a call answers, and the memory after it. -/
def ask (memory : Memory) : HeapCall → Except CallError UInt32 × Memory
  | .allocate size =>
    match memory.allocate size with
    | .ok (address, memory') => (.ok address, memory')
    | .error error => (.error error, memory)
  | .place data =>
    match Access.writeFresh data memory with
    | .ok address memory' => (.ok address, memory')
    | .error error memory' => (.error error, memory')

/-- The memory after calls, one after the other. -/
def askAll (memory : Memory) (calls : List HeapCall) : Memory :=
  calls.foldl (fun memory call => (memory.ask call).2) memory

def answers (memory : Memory) : List HeapCall → List (Except CallError UInt32)
  | [] => []
  | call :: rest => (memory.ask call).1 :: (memory.ask call).2.answers rest

/-- The ranges that are handed out. -/
def grants (memory : Memory) : List HeapCall → List Grant
  | [] => []
  | call :: rest =>
    match (memory.ask call).1 with
    | .ok address => ⟨address, call.length⟩ :: (memory.ask call).2.grants rest
    | .error _ => (memory.ask call).2.grants rest

end Memory

/-- What a call does that is served: the octets of the range change at most, and its end is the new
top. -/
structure Grants (before : LinearMemory) (call : HeapCall) (address : UInt32)
    (after : LinearMemory) : Prop where
  size : after.bytes.size = before.bytes.size
  heapTop : ∃ stop, after.heapTop = some stop ∧ stop.toNat = address.toNat + call.length
  /-- An allocation changes no octets at all. -/
  allocated : ∀ size, call = .allocate size → after.bytes = before.bytes
  outside : ∀ i, ¬ (address.toNat ≤ i ∧ i < address.toNat + call.length) →
    after.bytes.octetAt i = before.bytes.octetAt i
  placed : ∀ data, call = .place data → after.bytes.slice address.toNat data.length = data

namespace Access

variable {memory memory' memory'' : Memory} {address : UInt32} {data : Bytes}

/-- `Access.writeFresh` allocates and then writes, with the allocator's new top in between. -/
theorem writeFresh_of_ok (hword : data.length < UInt32.size)
    (hallocate : memory.allocate (UInt32.ofNat data.length) = .ok (address, memory'))
    (hwrite : memory'.write address data = .ok memory'') :
    writeFresh data memory = .ok address memory'' := by
  rw [writeFresh, if_pos hword, bind_get]
  simp only [hallocate]
  rw [bind_set, bind_of_ok ((write_eq_ok_iff (u := ())).mpr hwrite)]
  rfl

/-- If the allocation is refused then `Access.writeFresh` has done nothing, neither to the octets
nor to the top. -/
theorem writeFresh_of_error {error : CallError} (hword : data.length < UInt32.size)
    (hallocate : memory.allocate (UInt32.ofNat data.length) = .error error) :
    writeFresh data memory = .error error memory := by
  rw [writeFresh, if_pos hword, bind_get]
  simp only [hallocate]
  rfl

/-- Data whose length is no word never get as far as `allocate`. -/
theorem writeFresh_of_not_word (hword : ¬ data.length < UInt32.size) :
    writeFresh data memory = .error (.guest .noMem) memory := by
  rw [writeFresh, if_neg hword]
  rfl

end Access

namespace Memory

open LinearMemory (HasRoom)

variable {linear : LinearMemory} {top : UInt32} {call : HeapCall}

/-! ## One call

Whether there is room decides what either kind of call does, so everything after this is proved by
the two cases of `Memory.ask_cases` and not by the kind of the call. -/

/-- A call that there is room for is given a range, and leaves behind what `Grants` says. -/
theorem ask_of_room (htop : linear.heapTop = some top)
    (hroom : linear.HasRoom top.toNat call.length) :
    ∃ address after, (attached linear).ask call = (.ok address, attached after) ∧
      address.toNat = ceilTo 8 top.toNat ∧ Grants linear call address after := by
  cases call with
  | allocate size =>
    obtain ⟨address, stop, hallocate, haddress, hstop⟩ := LinearMemory.allocate_of_room htop hroom
    refine ⟨address, { linear with heapTop := some stop }, ?_, haddress, rfl, ⟨stop, rfl, hstop⟩,
      fun _ _ => rfl, fun _ _ => rfl, nofun⟩
    simp only [ask, allocate, hallocate, Except.map]
  | place data =>
    have hword : data.length < UInt32.size := Nat.lt_of_le_of_lt (Nat.le_add_left _ _) hroom.1
    have hlength : (UInt32.ofNat data.length).toNat = data.length :=
      UInt32.toNat_ofNat_of_lt' hword
    have hroom' : linear.HasRoom top.toNat (UInt32.ofNat data.length).toNat := by rwa [hlength]
    obtain ⟨address, stop, hallocate, haddress, hstop⟩ := LinearMemory.allocate_of_room htop hroom'
    rw [hlength] at hstop
    have hfits : address.toNat + data.length ≤ linear.bytes.size := by
      rw [haddress]
      exact hroom.2
    -- the range was handed out inside the memory, so the write into it is not refused
    have hwrite : (attached { linear with heapTop := some stop }).write address data =
        .ok (attached ({ linear with heapTop := some stop }.write address data)) :=
      write_eq_ok_iff.mpr ⟨_, rfl, hword, hfits, rfl⟩
    refine ⟨address, { linear with heapTop := some stop }.write address data, ?_, haddress,
      Octets.size_write _ _ _, ⟨stop, rfl, hstop⟩, nofun, ?outside, ?placed⟩
    case outside => exact fun i hi => Octets.octetAt_write_of_not_mem _ hfits hi
    case placed =>
      rintro _ ⟨⟩
      rw [LinearMemory.write, Octets.slice_write _ hfits (Nat.le_refl _), List.take_length]
    have hallocated : (attached linear).allocate (UInt32.ofNat data.length) =
        .ok (address, attached { linear with heapTop := some stop }) := by
      simp only [allocate, hallocate, Except.map]
    simp only [ask, Access.writeFresh_of_ok hword hallocated hwrite]

/-- A call that there is no room for leaves the memory with its top as they were. -/
theorem ask_of_no_room (htop : linear.heapTop = some top)
    (hroom : ¬ linear.HasRoom top.toNat call.length) :
    (attached linear).ask call = (.error (.guest .noMem), attached linear) := by
  cases call with
  | allocate size =>
    simp only [ask, allocate, LinearMemory.allocate_of_no_room htop hroom, Except.map]
  | place data =>
    by_cases hword : data.length < UInt32.size
    · have hlength : (UInt32.ofNat data.length).toNat = data.length :=
        UInt32.toNat_ofNat_of_lt' hword
      have hrefused : (attached linear).allocate (UInt32.ofNat data.length) =
          .error (.guest .noMem) := by
        rw [allocate, LinearMemory.allocate_of_no_room htop (by rwa [hlength])]
        rfl
      simp only [ask, Access.writeFresh_of_error hword hrefused]
    · -- a length that is no word is refused before, with the same error
      simp only [ask, Access.writeFresh_of_not_word hword]

/-- Either there is room and the call is served as by `ask_of_room`, or there is none and it is
refused as by `ask_of_no_room`. -/
theorem ask_cases (htop : linear.heapTop = some top) (call : HeapCall) :
    (∃ address after, linear.HasRoom top.toNat call.length ∧
        (attached linear).ask call = (.ok address, attached after) ∧
          address.toNat = ceilTo 8 top.toNat ∧ Grants linear call address after) ∨
      ¬ linear.HasRoom top.toNat call.length ∧
        (attached linear).ask call = (.error (.guest .noMem), attached linear) := by
  by_cases hroom : linear.HasRoom top.toNat call.length
  · obtain ⟨address, after, hask, haddress, hgrants⟩ := ask_of_room htop hroom
    exact .inl ⟨address, after, hroom, hask, haddress, hgrants⟩
  · exact .inr ⟨hroom, ask_of_no_room htop hroom⟩

/-! ## Any calls

By induction on the calls. The invariant is `LinearMemory.Filled`: what lies below the top is no
longer touched. -/

theorem askAll_cons (memory : Memory) (call : HeapCall) (rest : List HeapCall) :
    memory.askAll (call :: rest) = (memory.ask call).2.askAll rest := rfl

theorem askAll_append (memory : Memory) (calls later : List HeapCall) :
    memory.askAll (calls ++ later) = (memory.askAll calls).askAll later :=
  List.foldl_append

theorem length_answers (memory : Memory) (calls : List HeapCall) :
    (memory.answers calls).length = calls.length := by
  induction calls generalizing memory with
  | nil => rfl
  | cons call rest ih => rw [answers, List.length_cons, ih, List.length_cons]

/-- The `answers` to calls that come later are given on the memory that those before have left. -/
theorem answers_append (memory : Memory) (calls later : List HeapCall) :
    memory.answers (calls ++ later) =
      memory.answers calls ++ (memory.askAll calls).answers later := by
  induction calls generalizing memory with
  | nil => rfl
  | cons call rest ih => rw [List.cons_append, answers, ih, answers, askAll_cons, List.cons_append]

/-- A call that is answered with an address adds a `Grant`. -/
theorem grants_of_ok {memory memory' : Memory} {address : UInt32}
    (h : memory.ask call = (.ok address, memory')) (rest : List HeapCall) :
    memory.grants (call :: rest) = ⟨address, call.length⟩ :: memory'.grants rest := by
  simp only [grants, h]

/-- A call that is refused adds no `Grant`. -/
theorem grants_of_error {memory memory' : Memory} {error : CallError}
    (h : memory.ask call = (.error error, memory')) (rest : List HeapCall) :
    memory.grants (call :: rest) = memory'.grants rest := by
  simp only [grants, h]

end Memory

/-- What calls leave of a memory whose top they find and move up: everything below it. -/
structure LinearMemory.Filled (before : LinearMemory) (top : UInt32) (after : LinearMemory)
    (stop : UInt32) : Prop where
  heapTop : after.heapTop = some stop
  le : top ≤ stop
  size : after.bytes.size = before.bytes.size
  below : ∀ i, i < top.toNat → after.bytes.octetAt i = before.bytes.octetAt i

namespace LinearMemory.Filled

variable {a b c : LinearMemory} {top middle stop address : UInt32} {call : HeapCall}

theorem refl (h : a.heapTop = some top) : a.Filled top a top :=
  ⟨h, UInt32.le_refl top, rfl, fun _ _ => rfl⟩

/-- `Filled` is transitive: indices below the first top are below the second. -/
theorem trans (hab : a.Filled top b middle) (hbc : b.Filled middle c stop) :
    a.Filled top c stop where
  heapTop := hbc.heapTop
  le := UInt32.le_trans hab.le hbc.le
  size := hbc.size.trans hab.size
  below i hi := by
    have hle := UInt32.le_iff_toNat_le.mp hab.le
    rw [hbc.below i (by omega), hab.below i hi]

/-- One call that is served has `Filled` the memory up to the end of its range. -/
theorem of_grants (h : Grants a call address b) (haddress : top ≤ address) :
    ∃ stop, a.Filled top b stop ∧ stop.toNat = address.toNat + call.length := by
  obtain ⟨stop, hheapTop, hstop⟩ := h.heapTop
  rw [UInt32.le_iff_toNat_le] at haddress
  refine ⟨stop, ⟨hheapTop, ?_, h.size, fun i hi => h.outside i ?_⟩, hstop⟩
  · rw [UInt32.le_iff_toNat_le]
    omega
  · omega

end LinearMemory.Filled

/-- Ranges as they are handed out in a memory of some size, from a base on. -/
structure Grant.Apart (size base : Nat) (grants : List Grant) : Prop where
  aligned : ∀ grant ∈ grants, 8 ∣ grant.start.toNat
  above : ∀ grant ∈ grants, base ≤ grant.start.toNat
  inside : ∀ grant ∈ grants, grant.stop ≤ size
  /-- Each begins at or after the end of every earlier one. -/
  ordered : grants.Pairwise fun earlier later => earlier.stop ≤ later.start.toNat

theorem Grant.Apart.nil (size base : Nat) : Grant.Apart size base [] :=
  ⟨nofun, nofun, nofun, .nil⟩

/-- Ranges after the first are handed out from its end on. That is how `ordered` gets from one range
to all that are later. -/
theorem Grant.Apart.cons {size base : Nat} {grant : Grant} {rest : List Grant}
    (haligned : 8 ∣ grant.start.toNat) (habove : base ≤ grant.start.toNat)
    (hinside : grant.stop ≤ size) (h : Grant.Apart size grant.stop rest) :
    Grant.Apart size base (grant :: rest) where
  aligned := List.forall_mem_cons.mpr ⟨haligned, h.aligned⟩
  above := by
    refine List.forall_mem_cons.mpr ⟨habove, fun later hlater => ?_⟩
    have hle := h.above later hlater
    unfold Grant.stop at hle
    omega
  inside := List.forall_mem_cons.mpr ⟨hinside, h.inside⟩
  ordered := .cons h.above h.ordered

namespace Memory

open LinearMemory (HasRoom)

variable {linear : LinearMemory} {top : UInt32}

/-- Calls have `Filled` a memory from its top to the end of the last range that they are given. -/
theorem askAll_filled (htop : linear.heapTop = some top) (calls : List HeapCall) :
    ∃ after stop, (attached linear).askAll calls = attached after ∧ linear.Filled top after stop ∧
      stop.toNat = Grant.reached top.toNat ((attached linear).grants calls) := by
  -- a call that is served moves the top, one that is refused leaves memory and top to the next
  induction calls generalizing linear top with
  | nil => exact ⟨linear, top, rfl, .refl htop, rfl⟩
  | cons call rest ih =>
    rcases ask_cases htop call with ⟨address, next, -, hask, haddress, hgrants⟩ | ⟨-, hask⟩
    · have hle : top ≤ address := by
        rw [UInt32.le_iff_toNat_le, haddress]
        exact le_ceilTo (by decide) _
      obtain ⟨middle, hfilled, hmiddle⟩ := LinearMemory.Filled.of_grants hgrants hle
      obtain ⟨after, stop, hrest, hafter, hstop⟩ := ih hfilled.heapTop
      refine ⟨after, stop, ?_, hfilled.trans hafter, ?_⟩
      · rw [askAll_cons, hask, hrest]
      · rw [grants_of_ok hask, Grant.reached, hstop, hmiddle]
        rfl
    · obtain ⟨after, stop, hrest, hafter, hstop⟩ := ih htop
      refine ⟨after, stop, ?_, hafter, ?_⟩
      · rw [askAll_cons, hask, hrest]
      · rw [grants_of_error hask, hstop]

/-- All grants are `Grant.Apart`, by induction on the calls: those of the rest are handed out from
the top that the first has left. -/
theorem grants_apart (htop : linear.heapTop = some top) (calls : List HeapCall) :
    Grant.Apart linear.bytes.size top.toNat ((attached linear).grants calls) := by
  -- the same two cases; the base of the remaining ranges is the end of the first
  induction calls generalizing linear top with
  | nil => exact .nil _ _
  | cons call rest ih =>
    rcases ask_cases htop call with ⟨address, next, hroom, hask, haddress, hgrants⟩ | ⟨-, hask⟩
    · obtain ⟨stop, hnext, hstop⟩ := hgrants.heapTop
      have hrest := ih hnext
      rw [hgrants.size, hstop] at hrest
      rw [grants_of_ok hask]
      refine .cons ?_ ?_ ?_ hrest
      · rw [haddress]
        exact Nat.dvd_mul_left _ _
      · rw [haddress]
        exact le_ceilTo (by decide) _
      · rw [Grant.stop, haddress]
        exact hroom.2
    · rw [grants_of_error hask]
      exact ih htop

end Memory

/-- How a call is served that is made after others and before more. -/
structure HeapCall.Served (memory : Memory) (size base : Nat) (before : List HeapCall)
    (call : HeapCall) (later : List HeapCall) : Prop where
  /-- It is given the least multiple of eight not below the last range, unless the range would leave
  the memory or its end would be no word. -/
  answer : ((memory.askAll before).ask call).1 =
    let start := ceilTo 8 (Grant.reached base (memory.grants before))
    if start + call.length < UInt32.size ∧ start + call.length ≤ size then
      .ok (UInt32.ofNat start)
    else .error (.guest .noMem)
  /-- If it is refused, all goes on as if it had not been made. -/
  refused : ∀ error, ((memory.askAll before).ask call).1 = .error error →
    ((memory.askAll before).ask call).2 = memory.askAll before ∧
      memory.answers (before ++ later) =
        (memory.answers (before ++ call :: later)).eraseIdx before.length ∧
      memory.askAll (before ++ later) = memory.askAll (before ++ call :: later)
  /-- Octets can be put wherever a range of their length can be allocated, -/
  placed : ∀ data address, call = .place data → data.length < UInt32.size →
    ((memory.askAll before).ask (.allocate (UInt32.ofNat data.length))).1 = .ok address →
      ((memory.askAll before).ask call).1 = .ok address
  /-- and stay there. -/
  kept : ∀ data address, call = .place data → ((memory.askAll before).ask call).1 = .ok address →
    (memory.askAll (before ++ call :: later)).slice address (UInt32.ofNat data.length) = .ok data

namespace Memory

open LinearMemory (HasRoom)

variable {linear : LinearMemory} {top : UInt32}

/-- What a call answers, as a function of the top alone. -/
theorem answer_eq (htop : linear.heapTop = some top) (call : HeapCall) :
    ((attached linear).ask call).1 =
      if linear.HasRoom top.toNat call.length then .ok (UInt32.ofNat (ceilTo 8 top.toNat))
      else .error (.guest .noMem) := by
  rcases ask_cases htop call with ⟨address, next, hroom, hask, haddress, -⟩ | ⟨hroom, hask⟩
  · rw [if_pos hroom, hask, ← haddress, UInt32.ofNat_toNat]
  · rw [if_neg hroom, hask]

/-- A call that is refused leaves the memory as it is. -/
theorem ask_of_error (htop : linear.heapTop = some top) {call : HeapCall} {error : CallError}
    (h : ((attached linear).ask call).1 = .error error) :
    (attached linear).ask call = (.error error, attached linear) := by
  rcases ask_cases htop call with ⟨address, next, -, hask, -⟩ | ⟨-, hask⟩
  · rw [hask] at h
    cases h
  · rw [hask] at h
    cases h
    exact hask

/-- What was put into a range is there after any more calls, as these have `Filled` other
indices. -/
theorem slice_askAll_of_placed (htop : linear.heapTop = some top) {data : Bytes} {address : UInt32}
    (h : ((attached linear).ask (.place data)).1 = .ok address) (later : List HeapCall) :
    (((attached linear).ask (.place data)).2.askAll later).slice address
      (UInt32.ofNat data.length) = .ok data := by
  rcases ask_cases htop (.place data) with ⟨_, next, hroom, hask, haddress, hgrants⟩ | ⟨-, hask⟩
  · rw [hask] at h ⊢
    cases h
    obtain ⟨stop, hnext, hstop⟩ := hgrants.heapTop
    obtain ⟨after, _, hlater, hfilled, -⟩ := askAll_filled hnext later
    have hlength : (UInt32.ofNat data.length).toNat = data.length :=
      UInt32.toNat_ofNat_of_lt' (Nat.lt_of_le_of_lt (Nat.le_add_left _ _) hroom.1)
    simp only [hlater]
    refine slice_eq_ok_iff.mpr ⟨after, rfl, ?_, ?_⟩
    · rw [InRange, hlength, hfilled.size, hgrants.size, haddress]
      exact hroom.2
    · -- the range lies below the top that the later calls have found
      have hkept : after.bytes.slice address.toNat data.length =
          next.bytes.slice address.toNat data.length :=
        Octets.slice_congr fun i _ hi => hfilled.below i (by rwa [hstop])
      rw [hlength, hkept, hgrants.placed data rfl]
  · rw [hask] at h
    cases h

/-- How any call among others is served. What came before is a memory filled up to some top
(`askAll_filled`), so it is enough to look at the call from there. -/
theorem served (htop : linear.heapTop = some top) (before : List HeapCall) (call : HeapCall)
    (later : List HeapCall) :
    call.Served (attached linear) linear.bytes.size top.toNat before later := by
  -- the memory that the calls before leave, and its top
  obtain ⟨now, stop, hnow, hfilled, hstop⟩ := askAll_filled htop before
  have hanswer := answer_eq hfilled.heapTop
  refine ⟨?answer, ?refused, ?placed, ?kept⟩
  case answer =>
    rw [hnow, hanswer, hstop]
    simp only [HasRoom, hfilled.size]
  case refused =>
    intro error herror
    rw [hnow] at herror
    have hask := ask_of_error hfilled.heapTop herror
    -- a refused call leaves no trace: without it the answers and the memory are the same
    refine ⟨by rw [hnow, hask], ?_, ?_⟩
    · rw [answers_append, answers_append, answers, hnow, hask,
        List.eraseIdx_append_of_length_le (Nat.le_of_eq (length_answers _ _)), length_answers,
        Nat.sub_self, List.eraseIdx_cons_zero]
    · rw [askAll_append, askAll_append, askAll_cons, hnow, hask]
  case placed =>
    rintro data address rfl hword hallocated
    rw [hnow] at hallocated ⊢
    have hlength : (UInt32.ofNat data.length).toNat = data.length :=
      UInt32.toNat_ofNat_of_lt' hword
    rw [hanswer, HeapCall.length, hlength] at hallocated
    rw [hanswer]
    exact hallocated
  case kept =>
    rintro data address rfl hplaced
    rw [askAll_append, askAll_cons]
    rw [hnow] at hplaced ⊢
    exact slice_askAll_of_placed hfilled.heapTop hplaced later

end Memory

/-- The ranges that any calls are given stand one after the other in the memory, at multiples of
eight from the base on. A call that is refused changes nothing for those after it, and what is put
into a range stays there. -/
theorem heap_hands_out_apart (linear : LinearMemory) (base : UInt32) :
    (∀ calls, Grant.Apart linear.bytes.size base.toNat
        ((Memory.attached (linear.withAllocator base)).grants calls)) ∧
      ∀ before call later, HeapCall.Served (.attached (linear.withAllocator base))
        linear.bytes.size base.toNat before call later := by
  have htop : (linear.withAllocator base).heapTop = some base := rfl
  exact ⟨Memory.grants_apart htop, Memory.served htop⟩

end WasiHost
