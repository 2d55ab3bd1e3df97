import WasiHost.Proofs.Call.Reach
import WasiHost.Proofs.Session.Run
import WasiHost.Proofs.Text.Utf8

/-!
# Fetching the command line and the environment

A program asks first how many strings there are and how long they are together, makes room for that,
and then asks for the strings. The two calls agree: what the first one tells is just what the second
one needs. Then the strings lie one after the other in the room made for them, from its beginning to
its end, and a program that follows the pointers and reads up to the zeros finds the texts again.

* **`StartupList`** — the two lists, which are fetched alike.
* **`Options.argumentsSize_eq`**, **`Options.environmentSize_eq`** — the length that is told, found
  by adding up, is that of the strings.
* **`StartupList.answer_sizesGet_eq_zero_iff`** — when the sizes can be told.
* **`StartupList.answer_stringsGet_eq_zero_iff`** — when the strings can be fetched.
* **`StartupList.two_calls`** — the protocol from one end to the other.
-/

namespace WasiHost

/-- The octets of each text with a zero after them. -/
def zeroEnded (texts : List String) : List Bytes :=
  texts.map fun text => utf8 text ++ [0]

/-- What a program is started with and fetches in two calls. -/
inductive StartupList where
  /-- The command line. -/
  | arguments
  /-- The environment. -/
  | environment
  deriving DecidableEq

namespace StartupList

/-- The texts of a list. A variable of the environment is one text. -/
def texts (options : Options) : StartupList → List String
  | arguments => options.arguments
  | environment => options.environment.map fun (key, value) => key ++ "=" ++ value

/-- The call that asks how many texts there are and how long they are together. -/
def sizesGet (count size : UInt32) : StartupList → Call
  | arguments => .argsSizesGet count size
  | environment => .environSizesGet count size

/-- The call that asks for the texts. -/
def stringsGet (pointers buffer : UInt32) : StartupList → Call
  | arguments => .argsGet pointers buffer
  | environment => .environGet pointers buffer

/-- The octets of the texts. -/
def strings (options : Options) (list : StartupList) : List Bytes :=
  zeroEnded (list.texts options)

/-- The length of the octets of all texts together. -/
def size (options : Options) (list : StartupList) : Nat :=
  (list.strings options).flatten.length

end StartupList

/-! ## The lengths agree

The program finds the lengths by adding up, entry by entry, and writes out strings that it has built
elsewhere. Both are brought down to `StartupList.strings`. -/

/-- `environmentStrings` are those of the list `environment`. -/
theorem Options.environmentStrings_eq (options : Options) :
    options.environmentStrings = StartupList.environment.strings options := by
  simp only [environmentStrings, StartupList.strings, StartupList.texts, zeroEnded, List.map_map]
  refine List.map_congr_left fun entry _ => ?_
  rw [Function.comp_apply, utf8_append, utf8_append]

theorem foldl_eq_length_flatten {α : Type} {add : Nat → α → Nat} (octets : α → Bytes)
    (h : ∀ total a, add total a = total + (octets a).length) (xs : List α) (total : Nat) :
    xs.foldl add total = total + (xs.map octets).flatten.length := by
  induction xs generalizing total with
  | nil => rfl
  | cons a rest ih =>
    rw [List.foldl_cons, ih, h, List.map_cons, List.flatten_cons, List.length_append, Nat.add_assoc]

/-- `argumentsSize`, the length that is told of the command line, is that of its strings. -/
theorem Options.argumentsSize_eq (options : Options) :
    options.argumentsSize = StartupList.arguments.size options := by
  refine (foldl_eq_length_flatten (fun text => utf8 text ++ [0]) ?_ _ 0).trans
    (Nat.zero_add _)
  intro total text
  rw [List.length_append, List.length_singleton, Nat.add_assoc]

/-- `environmentSize`, added up pair by pair, is the length of the strings of the environment. -/
theorem Options.environmentSize_eq (options : Options) :
    options.environmentSize = StartupList.environment.size options := by
  rw [StartupList.size, ← environmentStrings_eq]
  refine (foldl_eq_length_flatten
    (fun entry : String × String => utf8 entry.1 ++ utf8 "=" ++ utf8 entry.2 ++ [0])
    ?_ _ 0).trans (Nat.zero_add _)
  intro total entry
  -- the two octets that are counted besides are the sign and the zero
  have hequals : (utf8 "=").length = 1 := by decide
  simp only [List.length_append, List.length_singleton, hequals]
  omega

/-! ## The texts in memory

`LinearMemory.HoldsStrings` is what a write of strings leaves, in numbers. `HoldsTexts` says the
same as a guest sees it, with words for addresses, and `textsAt` is a guest that reads them. -/

/-- The texts lie one after the other, each with a zero octet after it, from `buffer` on to `length`
octets later, and the words from `pointers` on say where each of them begins. -/
structure LinearMemory.HoldsTexts (memory : LinearMemory) (texts : List String)
    (pointers buffer : UInt32) (length : Nat) (begins : Nat → UInt32) : Prop where
  pointer : ∀ i, i < texts.length →
    (Memory.attached memory).readU32 (pointers + UInt32.ofNat (4 * i)) = .ok (begins i)
  first : texts ≠ [] → begins 0 = buffer
  next : ∀ i (h : i + 1 < texts.length),
    (begins (i + 1)).toNat = (begins i).toNat + (utf8 texts[i]).length + 1
  last : ∀ i (h : i < texts.length), i + 1 = texts.length →
    (begins i).toNat + (utf8 texts[i]).length + 1 = buffer.toNat + length
  text : ∀ i (h : i < texts.length),
    memory.bytes.slice (begins i).toNat ((utf8 texts[i]).length + 1) = utf8 texts[i] ++ [0]
  inside : ∀ i (h : i < texts.length),
    (begins i).toNat + (utf8 texts[i]).length + 1 ≤ memory.bytes.size

theorem LinearMemory.HoldsTexts.nil (memory : LinearMemory) (pointers buffer : UInt32)
    (length : Nat) (begins : Nat → UInt32) :
    memory.HoldsTexts [] pointers buffer length begins :=
  ⟨nofun, nofun, nofun, nofun, nofun, nofun⟩

/-- The texts that a guest finds when it follows `count` pointers and reads up to the zeros. -/
def LinearMemory.textsAt (memory : LinearMemory) (pointers : UInt32) (count : Nat) :
    List (Option String) :=
  (List.range count).map fun i =>
    match (Memory.attached memory).readU32 (pointers + UInt32.ofNat (4 * i)) with
    | .ok start => Utf8.decode? (memory.bytes.untilZero start.toNat)
    | .error _ => none

/-- `textsAt`, as a guest reads them, are the texts held there, unless one of them has a zero in
it. -/
theorem LinearMemory.HoldsTexts.textsAt_eq {memory : LinearMemory} {texts : List String}
    {pointers buffer : UInt32} {length : Nat} {begins : Nat → UInt32}
    (h : memory.HoldsTexts texts pointers buffer length begins)
    (hzero : ∀ text ∈ texts, '\x00' ∉ text.toList) :
    memory.textsAt pointers texts.length = texts.map some := by
  apply List.ext_getElem
  · simp [textsAt]
  · intro i hi _
    have hi : i < texts.length := by simpa [textsAt] using hi
    -- the first zero is the one behind the text, since there is none in it
    have hfound : memory.bytes.untilZero (begins i).toNat = utf8 texts[i] :=
      Octets.untilZero_of_slice (by simpa using h.text i hi)
        (by simpa [Nat.add_assoc] using h.inside i hi)
        (Utf8.not_mem_utf8 (by decide) rfl (hzero _ (List.getElem_mem hi)))
    simp only [textsAt, List.getElem_map, List.getElem_range, h.pointer i hi, hfound,
      Utf8.decode?_utf8]

namespace Memory

/-- `readU32` reads the number whose octets are there. -/
theorem readU32_of_slice {linear : LinearMemory} {address : UInt32} {n : Nat}
    (hn : n < UInt32.size) (hrange : address.toNat + 4 ≤ linear.bytes.size)
    (hslice : linear.bytes.slice address.toNat 4 = LittleEndian.encode 4 n) :
    (attached linear).readU32 address = .ok (UInt32.ofNat n) := by
  have hread : (attached linear).slice address 4 = .ok (LittleEndian.encode 4 n) :=
    slice_eq_ok_iff.mpr ⟨linear, rfl, hrange, hslice.symm⟩
  rw [readU32, readWord, hread]
  simp only [Except.map, LittleEndian.decode_encode]
  rw [show Nat.pow 256 4 = UInt32.size from rfl, Nat.mod_eq_of_lt hn]

end Memory

/-- How many octets come before a string. -/
def stringOffset (strings : List Bytes) (i : Nat) : Nat :=
  (strings.take i).flatten.length

/-- `stringOffset` adds up the lengths of the strings. -/
theorem stringOffset_succ {strings : List Bytes} {i : Nat} (h : i < strings.length) :
    stringOffset strings (i + 1) = stringOffset strings i + strings[i].length := by
  rw [stringOffset, List.take_add_one, List.getElem?_eq_getElem h, List.flatten_append,
    List.length_append, stringOffset]
  simp

/-- No string begins behind the end of all. -/
theorem stringOffset_le (strings : List Bytes) (i : Nat) :
    stringOffset strings i ≤ strings.flatten.length := by
  conv_rhs => rw [← List.take_append_drop i strings, List.flatten_append, List.length_append]
  exact Nat.le_add_right _ _

theorem stringOffset_length (strings : List Bytes) :
    stringOffset strings strings.length = strings.flatten.length := by
  rw [stringOffset, List.take_length]

/-- `UInt32.toNat_add` without the modulus, for a number that need not be a word. -/
theorem toNat_add_ofNat {a : UInt32} {n : Nat} (h : a.toNat + n < UInt32.size) :
    (a + UInt32.ofNat n).toNat = a.toNat + n := by
  rw [UInt32.toNat_add, UInt32.toNat_ofNat', Nat.add_mod_mod]
  exact Nat.mod_eq_of_lt h

/-- `HoldsStrings` in exact integers is `HoldsTexts` in words, if both areas lie inside what words
can address. -/
theorem LinearMemory.HoldsStrings.holdsTexts {memory : LinearMemory} {texts : List String}
    {pointers buffer : UInt32}
    (h : memory.HoldsStrings (zeroEnded texts) buffer.toNat pointers.toNat)
    (hsize : memory.bytes.size < UInt32.size)
    (hbuffer : buffer.toNat + (zeroEnded texts).flatten.length ≤ memory.bytes.size)
    (hpointers : pointers.toNat + 4 * texts.length ≤ memory.bytes.size) :
    memory.HoldsTexts texts pointers buffer (zeroEnded texts).flatten.length
      fun i => buffer + UInt32.ofNat (stringOffset (zeroEnded texts) i) := by
  have hcount : (zeroEnded texts).length = texts.length := List.length_map _
  have hbegins (i : Nat) : (buffer + UInt32.ofNat (stringOffset (zeroEnded texts) i)).toNat =
      buffer.toNat + stringOffset (zeroEnded texts) i := by
    have hle := stringOffset_le (zeroEnded texts) i
    exact toNat_add_ofNat (by omega)
  -- every text begins behind the zero of the one before it
  have hnext (i : Nat) (hi : i < texts.length) : stringOffset (zeroEnded texts) (i + 1) =
      stringOffset (zeroEnded texts) i + (utf8 texts[i]).length + 1 := by
    rw [stringOffset_succ (by rwa [hcount])]
    simp [zeroEnded, Nat.add_assoc]
  constructor
  case pointer =>
    intro i hi
    have haddress : (pointers + UInt32.ofNat (4 * i)).toNat = pointers.toNat + 4 * i :=
      toNat_add_ofNat (by omega)
    have hle := stringOffset_le (zeroEnded texts) i
    have hword := h.pointer i (by rwa [hcount])
    rw [← haddress, ← stringOffset] at hword
    rw [Memory.readU32_of_slice (by omega) (by omega) hword, ← hbegins, UInt32.ofNat_toNat]
  case first =>
    intro _
    exact UInt32.add_zero buffer
  case next =>
    intro i hi
    rw [hbegins, hbegins, hnext i (by omega)]
    omega
  case last =>
    intro i hi hlast
    rw [hbegins, ← stringOffset_length, hcount, ← hlast, hnext i hi]
    omega
  case text =>
    intro i hi
    have hstring := h.string i (by rwa [hcount])
    rw [hbegins]
    simpa [zeroEnded, stringOffset] using hstring
  case inside =>
    intro i hi
    have hle := stringOffset_le (zeroEnded texts) (i + 1)
    rw [hnext i hi] at hle
    rw [hbegins]
    omega

namespace Action

open Memory

variable {w w' : Workspace}

/-- `storeSizes` succeeds exactly if both numbers are words and both stores succeed, one after the
other. -/
theorem storeSizes_eq_ok_iff {count size : Nat} {countAddress sizeAddress : UInt32} :
    storeSizes count size countAddress sizeAddress w = .ok () w' ↔
      count < UInt32.size ∧ size < UInt32.size ∧
        ∃ memory₁ memory₂,
          Access.writeU32 countAddress (UInt32.ofNat count) w.memory = .ok () memory₁ ∧
          Access.writeU32 sizeAddress (UInt32.ofNat size) memory₁ = .ok () memory₂ ∧
          w' = { w with memory := memory₂ } := by
  constructor
  · intro h
    obtain ⟨_, _, hcount, h⟩ := bind_eq_ok_iff.mp h
    obtain ⟨_, _, hfirst, h⟩ := bind_eq_ok_iff.mp h
    obtain ⟨_, _, hsize, hsecond⟩ := bind_eq_ok_iff.mp h
    -- four steps: each number is checked to be a word and then stored
    obtain ⟨hcountLt, rfl, rfl⟩ := word_eq_ok_iff.mp hcount
    obtain ⟨hsizeLt, rfl, rfl⟩ := word_eq_ok_iff.mp hsize
    obtain ⟨memory₁, hcountStored, rfl⟩ := access_eq_ok_iff.mp hfirst
    obtain ⟨memory₂, hsizeStored, rfl⟩ := access_eq_ok_iff.mp hsecond
    exact ⟨hcountLt, hsizeLt, memory₁, memory₂, hcountStored, hsizeStored, rfl⟩
  · rintro ⟨hcountLt, hsizeLt, memory₁, memory₂, hcountStored, hsizeStored, rfl⟩
    have hcount : word count w = .ok (UInt32.ofNat count) w :=
      word_eq_ok_iff.mpr ⟨hcountLt, rfl, rfl⟩
    have hfirst : access (Access.writeU32 countAddress (UInt32.ofNat count)) w =
        .ok () { w with memory := memory₁ } := access_eq_ok_iff.mpr ⟨memory₁, hcountStored, rfl⟩
    have hsize : word size { w with memory := memory₁ } =
        .ok (UInt32.ofNat size) { w with memory := memory₁ } :=
      word_eq_ok_iff.mpr ⟨hsizeLt, rfl, rfl⟩
    rw [storeSizes, bind_of_ok hcount, bind_of_ok hfirst, bind_of_ok hsize]
    exact access_eq_ok_iff.mpr ⟨memory₂, hsizeStored, rfl⟩

/-- `readU32` finds both numbers that `storeSizes` has stored, if the cells are apart. -/
theorem readU32_of_storeSizes {count size : Nat} {countAddress sizeAddress : UInt32}
    (hapart : ∀ i, Spans countAddress 4 i → ¬ Spans sizeAddress 4 i)
    (h : storeSizes count size countAddress sizeAddress w = .ok () w') :
    w'.memory.readU32 countAddress = .ok (UInt32.ofNat count) ∧
      w'.memory.readU32 sizeAddress = .ok (UInt32.ofNat size) := by
  obtain ⟨_, _, _, memory, hcountStored, hsizeStored, rfl⟩ := storeSizes_eq_ok_iff.mp h
  -- the second cell is stored last and leaves the first one alone
  have hkept := (Access.reachesOnly_writeU32 sizeAddress (UInt32.ofNat size)).ok hsizeStored
  refine ⟨?_, Access.readU32_of_writeU32 hsizeStored⟩
  exact (hkept.readU32_eq hapart).trans (Access.readU32_of_writeU32 hcountStored)

/-- `storeSizes` succeeds exactly if both numbers are words and both cells lie inside. -/
theorem exists_storeSizes_iff {linear : LinearMemory} {count size : Nat}
    {countAddress sizeAddress : UInt32} (hmemory : w.memory = .attached linear) :
    (∃ w', storeSizes count size countAddress sizeAddress w = .ok () w') ↔
      count < UInt32.size ∧ size < UInt32.size ∧
        countAddress.toNat + 4 ≤ linear.bytes.size ∧ sizeAddress.toNat + 4 ≤ linear.bytes.size := by
  simp only [storeSizes_eq_ok_iff, hmemory, Access.writeU32_eq_ok_iff]
  constructor
  · rintro ⟨_, hcountLt, hsizeLt, _, _, ⟨hcountCell, rfl⟩, hsecond, _⟩
    obtain ⟨hsizeCell, _⟩ := Access.writeU32_eq_ok_iff.mp hsecond
    rw [LinearMemory.size_write] at hsizeCell
    exact ⟨hcountLt, hsizeLt, hcountCell, hsizeCell⟩
  · rintro ⟨hcountLt, hsizeLt, hcountCell, hsizeCell⟩
    -- the first store leaves the size of the memory as it is
    rw [← LinearMemory.size_write linear countAddress
      (LittleEndian.encode 4 (UInt32.ofNat count).toNat)] at hsizeCell
    exact ⟨_, hcountLt, hsizeLt, _, _, ⟨hcountCell, rfl⟩,
      Access.writeU32_eq_ok_iff.mpr ⟨hsizeCell, rfl⟩, rfl⟩

end Action

namespace StartupList

open Memory WasiHost.Action

variable {host : Host} {list : StartupList} {s : Session} {linear : LinearMemory}
  {pointers buffer count size : UInt32}

/-- Either call for the sizes stores the number and the length of `StartupList.texts`. -/
theorem body_sizesGet (host : Host) (list : StartupList) (count size : UInt32) (w : Workspace) :
    (list.sizesGet count size).body host w =
      storeSizes (list.texts w.session.options).length (list.size w.session.options) count size
        w := by
  cases list with
  | arguments =>
    rw [← Options.argumentsSize_eq]
    rfl
  | environment =>
    rw [← Options.environmentSize_eq, texts, List.length_map]
    rfl

/-- Either call for the strings writes `StartupList.strings`. -/
theorem body_stringsGet (host : Host) (list : StartupList) (pointers buffer : UInt32)
    (w : Workspace) :
    (list.stringsGet pointers buffer).body host w =
      access (Access.writeStrings (list.strings w.session.options) buffer pointers) w := by
  cases list with
  | arguments => rfl
  | environment =>
    rw [← Options.environmentStrings_eq]
    rfl

theorem length_strings (options : Options) (list : StartupList) :
    (list.strings options).length = (list.texts options).length := by
  rw [strings, zeroEnded, List.length_map]

theorem asksClock_sizesGet (list : StartupList) (count size : UInt32) :
    (list.sizesGet count size).asksClock = false := by
  cases list <;> rfl

theorem asksClock_stringsGet (list : StartupList) (pointers buffer : UInt32) :
    (list.stringsGet pointers buffer).asksClock = false := by
  cases list <;> rfl

/-- `sizesGet` answers zero exactly if the sizes of the list are words and both cells lie inside. -/
theorem answer_sizesGet_eq_zero_iff :
    ((list.sizesGet count size).perform host s (.attached linear)).answer = .ok 0 ↔
      (list.texts s.options).length < UInt32.size ∧ list.size s.options < UInt32.size ∧
        count.toNat + 4 ≤ linear.bytes.size ∧ size.toNat + 4 ≤ linear.bytes.size := by
  simp only [Call.answer_eq_zero_iff (list.asksClock_sizesGet count size), Call.run, body_sizesGet]
  exact exists_storeSizes_iff rfl

/-- Fetching succeeds exactly if `Access.writeStrings` does. -/
theorem answer_stringsGet_eq_zero_iff_exists :
    ((list.stringsGet pointers buffer).perform host s (.attached linear)).answer = .ok 0 ↔
      ∃ memory, Access.writeStrings (list.strings s.options) buffer pointers (.attached linear) =
        .ok () memory := by
  simp only [Call.answer_eq_zero_iff (list.asksClock_stringsGet pointers buffer), Call.run,
    body_stringsGet, access_eq_ok_iff]
  constructor
  · rintro ⟨_, memory, hwrite, _⟩
    exact ⟨memory, hwrite⟩
  · rintro ⟨memory, hwrite⟩
    exact ⟨_, memory, hwrite, rfl⟩

/-- `stringsGet` answers zero exactly if there are no texts or both areas lie inside. -/
theorem answer_stringsGet_eq_zero_iff (hsize : linear.bytes.size < UInt32.size) :
    ((list.stringsGet pointers buffer).perform host s (.attached linear)).answer = .ok 0 ↔
      list.texts s.options = [] ∨
        buffer.toNat + list.size s.options ≤ linear.bytes.size ∧
          pointers.toNat + 4 * (list.texts s.options).length ≤ linear.bytes.size := by
  have hnil : list.strings s.options = [] ↔ list.texts s.options = [] := List.map_eq_nil_iff
  rw [answer_stringsGet_eq_zero_iff_exists, Access.writeStrings_ok_iff hsize, hnil,
    length_strings]
  rfl

/-- `sizesGet` leaves the session as it is, and what is told can be read from the two cells. -/
theorem told_of_sizesGet (hcells : ∀ i, Spans count 4 i → ¬ Spans size 4 i)
    (h : ((list.sizesGet count size).perform host s (.attached linear)).answer = .ok 0) :
    let told := (list.sizesGet count size).perform host s (.attached linear)
    told.session = s ∧
      (list.texts s.options).length < UInt32.size ∧ list.size s.options < UInt32.size ∧
      told.memory.readU32 count = .ok (UInt32.ofNat (list.texts s.options).length) ∧
      told.memory.readU32 size = .ok (UInt32.ofNat (list.size s.options)) := by
  obtain ⟨w, hrun⟩ := Call.run_of_answer_eq_zero (list.asksClock_sizesGet count size) h
  obtain ⟨_, hsession, hmemory⟩ := Call.perform_of_ok hrun
  rw [Call.run, body_sizesGet] at hrun
  have houter := (keeps_outer_storeSizes _ _ _ _).ok hrun
  obtain ⟨hcountLt, hsizeLt, _⟩ := storeSizes_eq_ok_iff.mp hrun
  simp only [hsession, hmemory]
  exact ⟨congrArg Prod.fst houter, hcountLt, hsizeLt, readU32_of_storeSizes hcells hrun⟩

/-- `stringsGet` leaves the texts where the guest wants them, if the two areas do not overlap. -/
theorem holdsTexts_of_stringsGet (hsize : linear.bytes.size < UInt32.size)
    (hareas : ∀ i, Spans pointers (4 * (list.texts s.options).length) i →
      ¬ Spans buffer (list.size s.options) i)
    (h : ((list.stringsGet pointers buffer).perform host s (.attached linear)).answer = .ok 0) :
    ∃ after begins,
      ((list.stringsGet pointers buffer).perform host s (.attached linear)).memory =
        .attached after ∧
      after.HoldsTexts (list.texts s.options) pointers buffer (list.size s.options) begins := by
  obtain ⟨memory, hwrite⟩ := answer_stringsGet_eq_zero_iff_exists.mp h
  have hreach :=
    (Access.reachesOnly_writeStrings (list.strings s.options) buffer pointers).ok hwrite
  obtain ⟨after, hafter, hkept, -⟩ := hreach.exists_linear
  obtain rfl : memory = .attached after := hafter
  have hrun : (list.stringsGet pointers buffer).run host s (.attached linear) =
      .ok () { session := s, memory := .attached after, events := [] } := by
    rw [Call.run, body_stringsGet]
    exact access_eq_ok_iff.mpr ⟨_, hwrite, rfl⟩
  have hheld : after.HoldsStrings (list.strings s.options) buffer.toNat pointers.toNat := by
    refine Access.holdsStrings_of_writeStrings (fun i hbuffer hpointers => ?_) hwrite
    rw [length_strings] at hpointers
    exact hareas i hpointers hbuffer
  have hmemory := (Call.perform_of_ok hrun).2.2
  -- either area may lie outside if there is nothing to store
  rcases (answer_stringsGet_eq_zero_iff hsize).mp h with hnone | ⟨hbuffer, hpointers⟩
  · -- of no text there is nothing to be held
    rw [hnone]
    exact ⟨after, fun _ => buffer, hmemory, .nil ..⟩
  · rw [← hkept] at hbuffer hpointers hsize
    exact ⟨after, _, hmemory, hheld.holdsTexts hsize hbuffer hpointers⟩

/-- `sizesGet` and `stringsGet` agree. What the first one tells is enough for the second one, and
nothing less is; and then a guest finds the texts in the room it has made for them. -/
theorem two_calls (host host' : Host) (list : StartupList) (s : Session)
    (linear linear' : LinearMemory) (count size pointers buffer : UInt32)
    (hcells : ∀ i, Spans count 4 i → ¬ Spans size 4 i)
    (htold : ((list.sizesGet count size).perform host s (.attached linear)).answer = .ok 0)
    (hsize : linear'.bytes.size < UInt32.size) :
    let told := (list.sizesGet count size).perform host s (.attached linear)
    let fetched := (list.stringsGet pointers buffer).perform host' told.session (.attached linear')
    ∃ n total : UInt32,
      told.memory.readU32 count = .ok n ∧ told.memory.readU32 size = .ok total ∧
      (fetched.answer = .ok 0 ↔
        n = 0 ∨ pointers.toNat + 4 * n.toNat ≤ linear'.bytes.size ∧
          buffer.toNat + total.toNat ≤ linear'.bytes.size) ∧
      ((∀ i, Spans pointers (4 * n.toNat) i → ¬ Spans buffer total.toNat i) →
        fetched.answer = .ok 0 →
        ∃ after begins, fetched.memory = .attached after ∧
          n.toNat = (list.texts s.options).length ∧
          after.HoldsTexts (list.texts s.options) pointers buffer total.toNat begins ∧
          ((∀ text ∈ list.texts s.options, '\x00' ∉ text.toList) →
            after.textsAt pointers n.toNat = (list.texts s.options).map some)) := by
  intro told fetched
  obtain ⟨hsession, hcountLt, hsizeLt, hcount, htotal⟩ := told_of_sizesGet hcells htold
  have hn : (UInt32.ofNat (list.texts s.options).length).toNat =
      (list.texts s.options).length := by
    rw [UInt32.toNat_ofNat', Nat.mod_eq_of_lt hcountLt]
  have hlength : (UInt32.ofNat (list.size s.options)).toNat = list.size s.options := by
    rw [UInt32.toNat_ofNat', Nat.mod_eq_of_lt hsizeLt]
  have hzero : UInt32.ofNat (list.texts s.options).length = 0 ↔ list.texts s.options = [] := by
    rw [← UInt32.toNat_inj, hn]
    exact List.length_eq_zero_iff
  refine ⟨_, _, hcount, htotal, ?_, ?_⟩
  · -- the guest's words are the number and the length that the second call works with
    rw [hzero, hn, hlength]
    simp only [fetched, told, hsession]
    rw [answer_stringsGet_eq_zero_iff hsize, and_comm]
  · simp only [fetched, told, hsession]
    rw [hn, hlength]
    intro hareas hfetched
    obtain ⟨after, begins, hmemory, hheld⟩ := holdsTexts_of_stringsGet hsize hareas hfetched
    exact ⟨after, begins, hmemory, rfl, hheld, hheld.textsAt_eq⟩

/-- An `environment` of two variables, one of them empty, is told and fetched. -/
theorem two_calls_of_two_variables :
    let host := Host.ofTree FlatTree.empty
    let s := Session.initial.withOptions { environment := [("A", "1"), ("B", "")] }
    let linear := LinearMemory.zeros 64
    let told := (Call.environSizesGet 0 4).perform host s (.attached linear)
    let fetched := (Call.environGet 8 16).perform host told.session (.attached linear)
    told.memory.readU32 0 = .ok 2 ∧ told.memory.readU32 4 = .ok 7 ∧ fetched.answer = .ok 0 ∧
      ∃ after, fetched.memory = .attached after ∧
        after.textsAt 8 2 = [some "A=1", some "B="] := by
  intro host s linear told fetched
  -- the two cells, and below the two areas, stand side by side
  have hcells : ∀ i, Spans 0 4 i → ¬ Spans 4 4 i := by
    intro i hfirst hsecond
    exact absurd hfirst.2 (Nat.not_lt.mpr hsecond.1)
  have htold : ((environment.sizesGet 0 4).perform host s (.attached linear)).answer = .ok 0 := by
    decide
  have hcount : told.memory.readU32 0 = .ok 2 := by decide
  have htotal : told.memory.readU32 4 = .ok 7 := by decide
  have hfetched : fetched.answer = .ok 0 := by decide
  obtain ⟨n, total, hn, hlength, -, hheld⟩ :=
    two_calls host host .environment s linear linear 0 4 8 16 hcells htold (by decide)
  -- what the theorem says is told is what can be computed
  cases hcount.symm.trans hn
  cases htotal.symm.trans hlength
  have hareas : ∀ i, Spans 8 8 i → ¬ Spans 16 7 i := by
    intro i hpointers hbuffer
    exact absurd hpointers.2 (Nat.not_lt.mpr hbuffer.1)
  obtain ⟨after, _, hmemory, _, _, htexts⟩ := hheld hareas hfetched
  exact ⟨hcount, htotal, hfetched, after, hmemory, htexts (by decide)⟩

end StartupList

end WasiHost
