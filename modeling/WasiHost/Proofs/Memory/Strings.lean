import WasiHost.Proofs.Memory.Reach

/-!
# Strings and the words that point to them

Storing a list of strings puts them one after the other from a buffer on and, string by string, a
word that says where it begins. Both areas are only as large as the list asks for, and inside a
memory that words can address the list is stored exactly if both areas lie inside. If the areas do
not overlap then no later string and no later word spoils what was stored before.

* **`writeStrings_cons_eq_ok_iff`** — what the first string asks for, and what is left for the
  others.
* **`writeStrings_ok_iff`** — when a list can be stored.
* **`reachesOnly_writeStrings`**, **`holdsStrings_of_writeStrings`** — what is outside and inside
  the two areas afterwards.
* **`untilZero_of_slice`** — a guest that reads up to a zero finds the string again.
-/

namespace WasiHost

namespace Octets

/-- The octets from an index on, up to the first zero or to the end. -/
def untilZero (octets : Octets) (start : Nat) : Bytes :=
  (octets.slice start (octets.size - start)).takeWhile fun b => b ≠ 0

/-- `untilZero` finds a string without a zero that is followed by one. -/
theorem untilZero_of_slice {octets : Octets} {start : Nat} {data : Bytes}
    (hslice : octets.slice start (data ++ [0]).length = data ++ [0])
    (hrange : start + (data ++ [0]).length ≤ octets.size) (hzero : (0 : UInt8) ∉ data) :
    octets.untilZero start = data := by
  have hlength : octets.size - start =
      (data ++ [0]).length + (octets.size - (start + (data ++ [0]).length)) := by omega
  have hkeep : ∀ b ∈ data, decide (b ≠ 0) = true := by
    intro b hb
    have : b ≠ 0 := fun h => hzero (h ▸ hb)
    simpa using this
  rw [untilZero, hlength, slice_append, hslice, List.append_assoc,
    List.takeWhile_append_of_pos hkeep]
  simp

end Octets

/-- The strings lie one after the other from `buffer` on, and the words from `pointers` on say where
each of them begins. -/
structure LinearMemory.HoldsStrings (memory : LinearMemory) (strings : List Bytes)
    (buffer pointers : Nat) : Prop where
  string : ∀ i (h : i < strings.length),
    memory.bytes.slice (buffer + (strings.take i).flatten.length) strings[i].length = strings[i]
  pointer : ∀ i, i < strings.length →
    memory.bytes.slice (pointers + 4 * i) 4 =
      LittleEndian.encode 4 (buffer + (strings.take i).flatten.length)

namespace LinearMemory

/-- `HoldsStrings` of one string and where it begins, and of the others where the two areas go
on. -/
theorem HoldsStrings.cons {memory : LinearMemory} {string : Bytes} {rest : List Bytes}
    {buffer pointers : Nat} (hstring : memory.bytes.slice buffer string.length = string)
    (hword : memory.bytes.slice pointers 4 = LittleEndian.encode 4 buffer)
    (hrest : memory.HoldsStrings rest (buffer + string.length) (pointers + 4)) :
    memory.HoldsStrings (string :: rest) buffer pointers where
  string := by
    intro i hi
    cases i with
    | zero => exact hstring
    | succ i =>
      -- string `i + 1` begins behind the first one
      have hnext := hrest.string i (by simpa using hi)
      simp only [List.take_succ_cons, List.flatten_cons, List.length_append,
        List.getElem_cons_succ]
      rwa [Nat.add_assoc] at hnext
  pointer := by
    intro i hi
    cases i with
    | zero => exact hword
    | succ i =>
      -- and so it is with what its pointer points to
      have hnext := hrest.pointer i (by simpa using hi)
      simp only [List.take_succ_cons, List.flatten_cons, List.length_append]
      rw [Nat.add_assoc, Nat.add_assoc] at hnext
      rwa [Nat.mul_add, Nat.mul_one, Nat.add_comm (4 * i) 4]

variable {linear : LinearMemory} {string : Bytes} {buffer pointers : UInt32}

/-- The memory with one string at `buffer` and, after that, where it begins at `pointers`. -/
def storeString (linear : LinearMemory) (string : Bytes) (buffer pointers : UInt32) :
    LinearMemory :=
  (linear.write buffer string).write pointers (LittleEndian.encode 4 buffer.toNat)

@[simp] theorem size_storeString (linear : LinearMemory) (string : Bytes)
    (buffer pointers : UInt32) :
    (linear.storeString string buffer pointers).bytes.size = linear.bytes.size := by
  rw [storeString, size_write, size_write]

/-- The string of `storeString` is there if its word, which is stored second, lies apart. -/
theorem slice_storeString (hrange : buffer.toNat + string.length ≤ linear.bytes.size)
    (hcell : pointers.toNat + 4 ≤ linear.bytes.size)
    (hapart : ∀ i, Spans buffer string.length i → ¬ Spans pointers 4 i) :
    (linear.storeString string buffer pointers).bytes.slice buffer.toNat string.length =
      string := by
  rw [storeString, Octets.slice_congr (b := (linear.write buffer string).bytes), write,
    Octets.slice_write _ hrange (Nat.le_refl _), List.take_length]
  intro i hlo hhi
  refine Octets.octetAt_write_of_not_mem _ ?_ ?_
  · rwa [LittleEndian.length_encode, size_write]
  · rw [LittleEndian.length_encode]
    exact hapart i ⟨hlo, hhi⟩

/-- The word of `storeString` is there whatever lies where, since it is stored second. -/
theorem slice_storeString_word (hcell : pointers.toNat + 4 ≤ linear.bytes.size) :
    (linear.storeString string buffer pointers).bytes.slice pointers.toNat 4 =
      LittleEndian.encode 4 buffer.toNat := by
  have hlength : (LittleEndian.encode 4 buffer.toNat).length = 4 := LittleEndian.length_encode _ _
  rw [storeString, write, Octets.slice_write _ (by rwa [hlength, size_write]) (by omega),
    List.take_of_length_le (by omega)]

end LinearMemory

namespace Access

open Memory

variable {linear : LinearMemory} {memory memory' : Memory} {string : Bytes}
  {strings rest : List Bytes} {buffer pointers : UInt32}

/-- `Access.advance` gives a sum exactly if that is a word. -/
theorem advance_eq_ok_iff {address length sum : UInt32} :
    advance address length memory = .ok sum memory' ↔
      sum.toNat = address.toNat + length.toNat ∧ memory' = memory := by
  have hadd := @LinearMemory.addWords?_eq_some_iff address length sum
  unfold advance
  -- the sum is taken in words, and fails if it is none
  cases h : LinearMemory.addWords? address length with
  | none =>
    rw [h] at hadd
    constructor
    · intro heq
      cases heq
    · rintro ⟨hsum, _⟩
      have hlt := sum.toNat_lt_size
      cases hadd.mpr ⟨by omega, hsum⟩
  | some sum' =>
    rw [h, Option.some.injEq] at hadd
    constructor
    · intro heq
      cases heq
      exact ⟨(hadd.mp rfl).2, rfl⟩
    · rintro ⟨hsum, rfl⟩
      have hlt := sum.toNat_lt_size
      rw [hadd.mpr ⟨by omega, hsum⟩]
      rfl

theorem keeps_advance (address length : UInt32) : Keeps id (advance address length) :=
  (Keeps.sequential id).advance address length

/-! ## One string

Storing a list is storing the first string with its word and then the rest. What the first asks for
and where the rest goes on is said by one equivalence, which carries the inductions below. -/

/-- `Access.writeStrings` stores the first string and its word, and the others where the two areas
go on. -/
theorem writeStrings_cons_eq_ok_iff {u : Unit} :
    writeStrings (string :: rest) buffer pointers (.attached linear) = .ok u memory' ↔
      buffer.toNat + string.length ≤ linear.bytes.size ∧ pointers.toNat + 4 ≤ linear.bytes.size ∧
        ∃ buffer' pointers' : UInt32, buffer'.toNat = buffer.toNat + string.length ∧
          pointers'.toNat = pointers.toNat + 4 ∧
          writeStrings rest buffer' pointers'
            (.attached (linear.storeString string buffer pointers)) = .ok u memory' := by
  rw [writeStrings]
  constructor
  · intro h
    obtain ⟨_, m, hstring, h⟩ := bind_eq_ok_iff.mp h
    obtain ⟨_, hlinear, hlength, hrange, rfl⟩ :=
      Memory.write_eq_ok_iff.mp (write_eq_ok_iff.mp hstring)
    cases hlinear
    obtain ⟨_, m, hword, h⟩ := bind_eq_ok_iff.mp h
    obtain ⟨_, hlinear, _, hcell, rfl⟩ := Memory.write_eq_ok_iff.mp (write_eq_ok_iff.mp hword)
    cases hlinear
    obtain ⟨buffer', m, hbuffer, h⟩ := bind_eq_ok_iff.mp h
    obtain ⟨hnext, rfl⟩ := advance_eq_ok_iff.mp hbuffer
    obtain ⟨pointers', m, hpointers, h⟩ := bind_eq_ok_iff.mp h
    obtain ⟨hnextWord, rfl⟩ := advance_eq_ok_iff.mp hpointers
    rw [UInt32.toNat_ofNat', Nat.mod_eq_of_lt hlength] at hnext
    rw [LittleEndian.length_encode, LinearMemory.size_write] at hcell
    exact ⟨hrange, hcell, buffer', pointers', hnext, hnextWord, h⟩
  · rintro ⟨hrange, hcell, buffer', pointers', hbuffer, hpointers, h⟩
    -- the next string begins at a word, so this one is not too long to be written
    have hlength : string.length < UInt32.size := by
      have := buffer'.toNat_lt_size
      omega
    have hstring : write buffer string (attached linear) =
        .ok () (.attached (linear.write buffer string)) :=
      write_eq_ok_iff.mpr (Memory.write_eq_ok_iff.mpr ⟨linear, rfl, hlength, hrange, rfl⟩)
    have hword : writeU32 pointers buffer (.attached (linear.write buffer string)) =
        .ok () (.attached (linear.storeString string buffer pointers)) := by
      refine write_eq_ok_iff.mpr (Memory.write_eq_ok_iff.mpr ⟨_, rfl, ?_, ?_, rfl⟩)
      · rw [LittleEndian.length_encode]
        decide
      · rwa [LittleEndian.length_encode, LinearMemory.size_write]
    have hofNat : (UInt32.ofNat string.length).toNat = string.length := by
      rw [UInt32.toNat_ofNat', Nat.mod_eq_of_lt hlength]
    rw [bind_of_ok hstring, bind_of_ok hword,
      bind_of_ok (advance_eq_ok_iff.mpr ⟨hofNat.symm ▸ hbuffer, rfl⟩),
      bind_of_ok (advance_eq_ok_iff.mpr ⟨hpointers, rfl⟩)]
    exact h

/-! ## All strings

Each of the following is by induction on the list, with the two cursors varying.
`writeStrings_cons_eq_ok_iff` is the step. -/

/-- Inside a memory that words can address, `Access.writeStrings` stores a list of strings exactly
if both its areas lie inside. Of an empty list nothing is asked. -/
theorem writeStrings_ok_iff (hsize : linear.bytes.size < UInt32.size) :
    (∃ memory', writeStrings strings buffer pointers (.attached linear) = .ok () memory') ↔
      strings = [] ∨ buffer.toNat + strings.flatten.length ≤ linear.bytes.size ∧
        pointers.toNat + 4 * strings.length ≤ linear.bytes.size := by
  induction strings generalizing linear buffer pointers with
  | nil =>
    constructor
    · exact fun _ => .inl rfl
    · exact fun _ => ⟨_, rfl⟩
  | cons string rest ih =>
    simp only [reduceCtorEq, false_or, List.flatten_cons, List.length_append, List.length_cons]
    have hstored : (linear.storeString string buffer pointers).bytes.size < UInt32.size := by
      rwa [LinearMemory.size_storeString]
    constructor
    · rintro ⟨memory', h⟩
      obtain ⟨hrange, hcell, buffer', pointers', hbuffer, hpointers, h⟩ :=
        writeStrings_cons_eq_ok_iff.mp h
      -- of no further strings nothing is asked, so then the first string is all there is
      rcases (ih hstored).mp ⟨memory', h⟩ with rfl | ⟨hstrings, hwords⟩
      · exact ⟨by simpa using hrange, by simpa using hcell⟩
      · rw [LinearMemory.size_storeString] at hstrings hwords
        omega
    · rintro ⟨hstrings, hwords⟩
      have hlt : linear.bytes.size < 2 ^ 32 := hsize
      have hbuffer : (UInt32.ofNat (buffer.toNat + string.length)).toNat =
          buffer.toNat + string.length := by
        rw [UInt32.toNat_ofNat', Nat.mod_eq_of_lt (by omega)]
      have hpointers : (UInt32.ofNat (pointers.toNat + 4)).toNat = pointers.toNat + 4 := by
        rw [UInt32.toNat_ofNat', Nat.mod_eq_of_lt (by omega)]
      obtain ⟨memory', hrest⟩ := (ih hstored).mpr (.inr
        ⟨by rw [hbuffer, LinearMemory.size_storeString]; omega,
          by rw [hpointers, LinearMemory.size_storeString]; omega⟩)
      exact ⟨memory', writeStrings_cons_eq_ok_iff.mpr
        ⟨by omega, by omega, _, _, hbuffer, hpointers, hrest⟩⟩

/-- However far `Access.writeStrings` comes, it stays in the area of the strings and in that of the
words. -/
theorem reachesOnly_writeStrings (strings : List Bytes) (buffer pointers : UInt32) :
    ReachesOnly
      (fun i => Spans buffer strings.flatten.length i ∨ Spans pointers (4 * strings.length) i) id
      (writeStrings strings buffer pointers) := by
  induction strings generalizing buffer pointers with
  | nil => exact reachesOnly_pure _ _ _
  | cons string rest ih =>
    rw [writeStrings]
    have hstrings : (string :: rest).flatten.length = string.length + rest.flatten.length := by
      rw [List.flatten_cons, List.length_append]
    have hfirst : ∀ i, Spans buffer string.length i →
        Spans buffer (string :: rest).flatten.length i := by
      unfold Spans
      omega
    have hword : ∀ i, Spans pointers 4 i → Spans pointers (4 * (string :: rest).length) i := by
      rw [List.length_cons]
      unfold Spans
      omega
    refine ((reachesOnly_write _ _).mono fun i hi => .inl (hfirst i hi)).bind fun _ => ?_
    refine ((reachesOnly_writeU32 _ _).mono fun i hi => .inr (hword i hi)).bind fun _ => ?_
    refine (ReachesOnly.of_keeps (keeps_advance _ _)).bind_of_ok fun _ buffer' _ hbuffer => ?_
    refine (ReachesOnly.of_keeps (keeps_advance _ _)).bind_of_ok fun _ pointers' _ hpointers => ?_
    have hbuffer := (advance_eq_ok_iff.mp hbuffer).1
    have hpointers : pointers'.toNat = pointers.toNat + 4 := (advance_eq_ok_iff.mp hpointers).1
    -- a string that does not fit in a word is cut here, but then it was not written
    have hlength : (UInt32.ofNat string.length).toNat ≤ string.length := by
      rw [UInt32.toNat_ofNat']
      exact Nat.mod_le _ _
    refine (ih buffer' pointers').mono fun i hi => ?_
    rw [List.length_cons]
    unfold Spans at hi ⊢
    omega

/-- If the two areas do not overlap, they hold the strings and where each begins, as `HoldsStrings`
says. -/
theorem holdsStrings_of_writeStrings {after : LinearMemory}
    (happart : ∀ i, Spans buffer strings.flatten.length i → ¬ Spans pointers (4 * strings.length) i)
    (h : writeStrings strings buffer pointers (.attached linear) = .ok () (.attached after)) :
    after.HoldsStrings strings buffer.toNat pointers.toNat := by
  induction strings generalizing linear buffer pointers with
  | nil => exact ⟨nofun, nofun⟩
  | cons string rest ih =>
    simp only [List.flatten_cons, List.length_append, List.length_cons, Spans] at happart
    obtain ⟨hrange, hcell, buffer', pointers', hbuffer, hpointers, hrest⟩ :=
      writeStrings_cons_eq_ok_iff.mp h
    have hrestApart : ∀ i, Spans buffer' rest.flatten.length i →
        ¬ Spans pointers' (4 * rest.length) i := by
      unfold Spans
      intro i hi hi'
      exact happart i (by omega) (by omega)
    have hfirstApart : ∀ i, Spans buffer string.length i → ¬ Spans pointers 4 i := by
      unfold Spans
      intro i hi hi'
      exact happart i (by omega) (by omega)
    have hheld := ih hrestApart hrest
    rw [hbuffer, hpointers] at hheld
    have hstring := LinearMemory.slice_storeString hrange hcell hfirstApart
    have hword : (linear.storeString string buffer pointers).bytes.slice pointers.toNat 4 =
        LittleEndian.encode 4 buffer.toNat := LinearMemory.slice_storeString_word hcell
    have hsame := (reachesOnly_writeStrings rest buffer' pointers').ok hrest
    -- neither a later string nor a later word touches this string or its word
    refine .cons ?_ ?_ hheld
    · rw [hsame.slice_eq, hstring]
      intro i hlo hhi hplace
      unfold Spans at hplace
      rcases hplace with hplace | hplace
      · omega
      · exact happart i (by omega) (by omega)
    · rw [hsame.slice_eq, hword]
      intro i hlo hhi hplace
      unfold Spans at hplace
      rcases hplace with hplace | hplace
      · exact happart i (by omega) (by omega)
      · omega

end Access

end WasiHost
