import Mathlib.Tactic.IntervalCases
import WasiHost.Text.Utf8

/-!
# Octets of a text read back

The reading machine takes the octets of a character to that character: what the first octet leaves
under way is just what the others bring. So every text is read back from its octets, by the strict
reader and by the lossy one alike.

* **`pieces_utf8EncodeChar`** — one character is read back, whatever follows it.
* **`decode?_utf8`**, **`decodeLossy_utf8`** — so is a whole text.
* **`not_mem_utf8`** — there is an octet of ASCII among the octets only if the text says so.
-/

namespace WasiHost

/-- `utf8` of two texts, one after the other, is that of the two together. -/
theorem utf8_append (a b : String) : utf8 (a ++ b) = utf8 a ++ utf8 b := by
  rw [utf8, utf8, utf8, String.toList_append, List.flatMap_append]

namespace Utf8

/-! ## Octets that continue a character

Every octet but the first carries six bits of its character and is marked by its upper two. The
reading machine is in a state `Unfinished` while it waits for them, with the range that the next one
must be in. -/

/-- The octet that carries six bits of a character. -/
def continuation (bits : Nat) : UInt8 :=
  UInt8.ofNat (bits % 64 + 128)

/-- A `continuation` lies in the quarter of the octets that begins at 128. -/
theorem toNat_continuation (bits : Nat) : (continuation bits).toNat = bits % 64 + 128 := by
  rw [continuation, UInt8.toNat_ofNat']
  omega

theorem toNat_continuation_sub (bits : Nat) : (continuation bits).toNat - 0x80 = bits % 64 := by
  rw [toNat_continuation]
  omega

variable {low high : UInt8} {gathered bits owed : Nat} {rest : Bytes}

/-- Whether a `continuation` is in a range can be said of its number, where `omega` decides it. -/
theorem continuation_mem_iff :
    low ≤ continuation bits ∧ continuation bits ≤ high ↔
      low.toNat ≤ bits % 64 + 128 ∧ bits % 64 + 128 ≤ high.toNat := by
  rw [UInt8.le_iff_toNat_le, UInt8.le_iff_toNat_le, toNat_continuation]

/-- A `continuation` in the range that an unfinished character asks for is taken by
`Unfinished.add`. -/
theorem pieces_continuation {u : Unfinished} (hlow : u.low.toNat ≤ bits % 64 + 128)
    (hhigh : bits % 64 + 128 ≤ u.high.toNat) :
    pieces (some u) (continuation bits :: rest) =
      (u.add (continuation bits)).1 ++ pieces (u.add (continuation bits)).2 rest := by
  simp only [pieces, step, if_pos (continuation_mem_iff.mpr ⟨hlow, hhigh⟩)]

/-- The last octet of a character completes it: nothing is owed any more, so `Unfinished.add` gives
the character out. -/
theorem pieces_last (hlow : low.toNat ≤ bits % 64 + 128) (hhigh : bits % 64 + 128 ≤ high.toNat) :
    pieces (some ⟨0, low, high, gathered⟩) (continuation bits :: rest) =
      some (Char.ofNat (gathered * 64 + bits % 64)) :: pieces none rest := by
  rw [pieces_continuation hlow hhigh, Unfinished.add, toNat_continuation_sub]
  rfl

/-- Any other octet adds its bits to what was gathered, and the next one may be any `continuation`.
-/
theorem pieces_more (hlow : low.toNat ≤ bits % 64 + 128) (hhigh : bits % 64 + 128 ≤ high.toNat) :
    pieces (some ⟨owed + 1, low, high, gathered⟩) (continuation bits :: rest) =
      pieces (some ⟨owed, 0x80, 0xBF, gathered * 64 + bits % 64⟩) rest := by
  rw [pieces_continuation hlow hhigh, Unfinished.add, toNat_continuation_sub]
  rfl

/-- An octet is in the range that most characters leave open. -/
theorem continuation_mem (bits : Nat) :
    (0x80 : UInt8).toNat ≤ bits % 64 + 128 ∧ bits % 64 + 128 ≤ (0xBF : UInt8).toNat := by
  have hlow : (0x80 : UInt8).toNat = 128 := rfl
  have hhigh : (0xBF : UInt8).toNat = 191 := rfl
  omega

/-- A second octet is in its range if it keeps the bounds that hold in its place. -/
theorem second_mem {low high : UInt8} {p q : Prop} [Decidable p] [Decidable q] {bits : Nat}
    (hlow : p → low.toNat ≤ bits % 64 + 128) (hhigh : q → bits % 64 + 128 ≤ high.toNat) :
    (if p then low else 0x80).toNat ≤ bits % 64 + 128 ∧
      bits % 64 + 128 ≤ (if q then high else 0xBF).toNat := by
  have hbits := continuation_mem bits
  constructor
  · split
    · next h => exact hlow h
    · exact hbits.1
  · split
    · next h => exact hhigh h
    · exact hbits.2

/-! ## First octets

How many octets a character has is told by the first, along with the bits it carries. That a
character is not written longer than it must be, is no surrogate and is in range is a matter of the
range in which the second octet is asked for. -/

/-- A first octet of two has five bits of the character, and leaves the second open. -/
theorem first_two {n : Nat} (hlo : 2 ≤ n) (hhi : n < 32) :
    first (UInt8.ofNat (n + 192)) = ([], some ⟨0, 0x80, 0xBF, n⟩) := by
  interval_cases n <;> rfl

/-- Of three octets the second is bounded below so that two would not do, and above so that the
character is no surrogate. -/
theorem first_three {n : Nat} (h : n < 16) :
    first (UInt8.ofNat (n + 224)) =
      ([], some ⟨1, if n = 0 then 0xA0 else 0x80, if n = 13 then 0x9F else 0xBF, n⟩) := by
  interval_cases n <;> rfl

/-- Of four octets the second is bounded below so that three would not do, and above so that there
is such a character. -/
theorem first_four {n : Nat} (h : n < 5) :
    first (UInt8.ofNat (n + 240)) =
      ([], some ⟨2, if n = 0 then 0x90 else 0x80, if n = 4 then 0x8F else 0xBF, n⟩) := by
  interval_cases n <;> rfl

/-! ## Characters

The four forms of an encoded character, and that the machine reads each of them back. In each the
octets after the first are taken by `pieces_more`, and the last by `pieces_last`. -/

/-- After a first octet that begins a character, `pieces` reads the rest with that character under
way. -/
theorem pieces_of_first {b : UInt8} {u : Unfinished} (h : first b = ([], some u)) (rest : Bytes) :
    pieces none (b :: rest) = pieces (some u) rest := by
  simp only [pieces, step, h, List.nil_append]

/-- The octets of a character, by its number. -/
inductive Encodes (c : Char) : Bytes → Prop where
  | one (h : c.toNat < 128) : Encodes c [UInt8.ofNat c.toNat]
  | two (hlo : 128 ≤ c.toNat) (hhi : c.toNat < 2048) :
      Encodes c [UInt8.ofNat (c.toNat / 64 + 192), continuation c.toNat]
  | three (hlo : 2048 ≤ c.toNat) (hhi : c.toNat < 65536) :
      Encodes c [UInt8.ofNat (c.toNat / 4096 + 224), continuation (c.toNat / 64),
        continuation c.toNat]
  | four (hlo : 65536 ≤ c.toNat) :
      Encodes c [UInt8.ofNat (c.toNat / 262144 + 240), continuation (c.toNat / 4096),
        continuation (c.toNat / 64), continuation c.toNat]

/-- A character is below the end of the range and no surrogate. -/
theorem toNat_valid (c : Char) : c.toNat < 55296 ∨ 57343 < c.toNat ∧ c.toNat < 1114112 :=
  c.valid

/-- The library's encoding of a character is one of the four forms of `Encodes`. Some remainders it
takes are idle for a character that is in the range of the form. -/
theorem encodes_utf8EncodeChar (c : Char) : Encodes c (String.utf8EncodeChar c) := by
  have hvalid := toNat_valid c
  have hnumber : c.val.toNat = c.toNat := rfl
  simp only [String.utf8EncodeChar, hnumber]
  split
  · exact .one (by omega)
  · split
    · rw [show c.toNat / 64 % 32 = c.toNat / 64 by omega]
      exact .two (by omega) (by omega)
    · split
      · rw [show c.toNat / 4096 % 16 = c.toNat / 4096 by omega]
        exact .three (by omega) (by omega)
      · rw [show c.toNat / 262144 % 8 = c.toNat / 262144 by omega]
        exact .four (by omega)

/-- `pieces` reads a character back from its octets, whatever follows them. -/
theorem pieces_utf8EncodeChar (c : Char) (rest : Bytes) :
    pieces none (String.utf8EncodeChar c ++ rest) = some c :: pieces none rest := by
  have hvalid := toNat_valid c
  have hoctets := encodes_utf8EncodeChar c
  generalize String.utf8EncodeChar c = octets at hoctets
  -- one case for each length; in all of them the number is put together again from its digits to
  -- the base 64
  cases hoctets with
  | one h =>
    have hnumber : (UInt8.ofNat c.toNat).toNat = c.toNat := by
      rw [UInt8.toNat_ofNat']
      omega
    have hlt : UInt8.ofNat c.toNat < 0x80 := by
      rw [UInt8.lt_iff_toNat_lt, hnumber]
      exact h
    have hfirst : first (UInt8.ofNat c.toNat) = ([some c], none) := by
      rw [first, if_pos hlt, hnumber, Char.ofNat_toNat]
    simp only [List.singleton_append, pieces, step, hfirst]
  | two hlo hhi =>
    have hsecond := continuation_mem c.toNat
    rw [List.cons_append, List.cons_append, List.nil_append,
      pieces_of_first (first_two (by omega) (by omega)), pieces_last hsecond.1 hsecond.2,
      show c.toNat / 64 * 64 + c.toNat % 64 = c.toNat by omega, Char.ofNat_toNat]
  | three hlo hhi =>
    -- a second octet below 0xA0 would say the same as two octets, one above 0x9F a surrogate
    have hthird := continuation_mem c.toNat
    have hlow (h : c.toNat / 4096 = 0) : (0xA0 : UInt8).toNat ≤ c.toNat / 64 % 64 + 128 := by
      change 160 ≤ _
      omega
    have hhigh (h : c.toNat / 4096 = 13) : c.toNat / 64 % 64 + 128 ≤ (0x9F : UInt8).toNat := by
      change _ ≤ 159
      omega
    have hsecond := second_mem hlow hhigh
    rw [List.cons_append, List.cons_append, List.cons_append, List.nil_append,
      pieces_of_first (first_three (by omega)), pieces_more hsecond.1 hsecond.2,
      pieces_last hthird.1 hthird.2,
      show (c.toNat / 4096 * 64 + c.toNat / 64 % 64) * 64 + c.toNat % 64 = c.toNat by omega,
      Char.ofNat_toNat]
  | four hlo =>
    -- a second octet below 0x90 would say the same as three octets, one above 0x8F no character
    have hfourth := continuation_mem c.toNat
    have hthird := continuation_mem (c.toNat / 64)
    have hlow (h : c.toNat / 262144 = 0) :
        (0x90 : UInt8).toNat ≤ c.toNat / 4096 % 64 + 128 := by
      change 144 ≤ _
      omega
    have hhigh (h : c.toNat / 262144 = 4) :
        c.toNat / 4096 % 64 + 128 ≤ (0x8F : UInt8).toNat := by
      change _ ≤ 143
      omega
    have hsecond := second_mem hlow hhigh
    rw [List.cons_append, List.cons_append, List.cons_append, List.cons_append, List.nil_append,
      pieces_of_first (first_four (by omega)), pieces_more hsecond.1 hsecond.2,
      pieces_more hthird.1 hthird.2, pieces_last hfourth.1 hfourth.2,
      show ((c.toNat / 262144 * 64 + c.toNat / 4096 % 64) * 64 + c.toNat / 64 % 64) * 64 +
        c.toNat % 64 = c.toNat by omega,
      Char.ofNat_toNat]

/-! ## Texts

What holds of one character, whatever follows it, holds of a text by induction. -/

/-- A text is read as its characters, by induction on them with `pieces_utf8EncodeChar` for each. -/
theorem pieces_utf8 (text : String) : pieces none (utf8 text) = text.toList.map some := by
  rw [utf8]
  induction text.toList with
  | nil => rfl
  | cons c rest ih => rw [List.flatMap_cons, pieces_utf8EncodeChar, ih, List.map_cons]

/-- Pieces without a bad one among them are a list of characters for `chars?`. -/
theorem chars?_map_some (chars : List Char) : chars? (chars.map some) = some chars := by
  induction chars with
  | nil => rfl
  | cons c rest ih => rw [List.map_cons, chars?, ih, Option.map_some]

/-- A text is read back from its octets by the strict reader: every octet was found to belong to a
character, so nothing makes `decode?` fail. -/
theorem decode?_utf8 (text : String) : decode? (utf8 text) = some text := by
  rw [decode?, pieces_utf8, chars?_map_some, Option.map_some, String.ofList_toList]

/-- Nothing is lost of octets that are those of a text: `decodeLossy` replaces bad pieces only, and
there are none. -/
theorem decodeLossy_utf8 (text : String) : decodeLossy (utf8 text) = text := by
  rw [decodeLossy, pieces_utf8, List.map_map]
  have hid : ((fun piece => Option.getD piece '\uFFFD') ∘ some : Char → Char) = id := rfl
  rw [hid, List.map_id, String.ofList_toList]

/-- The octets of a character of several octets are all beyond those of ASCII. -/
theorem le_of_mem_cons {n : Nat} (hlo : 128 ≤ n) (hhi : n < 256) (bits : List Nat) :
    ∀ b ∈ UInt8.ofNat n :: bits.map continuation, 128 ≤ b.toNat := by
  rw [List.forall_mem_cons, List.forall_mem_map]
  constructor
  · rw [UInt8.toNat_ofNat']
    omega
  · intro m _
    rw [toNat_continuation]
    omega

/-- An octet of ASCII is in `String.utf8EncodeChar` of its own character only. -/
theorem toNat_eq_of_mem_utf8EncodeChar {c : Char} {b : UInt8} (hb : b.toNat < 128)
    (h : b ∈ String.utf8EncodeChar c) : c.toNat = b.toNat := by
  have hvalid := toNat_valid c
  have hoctets := encodes_utf8EncodeChar c
  -- only a character of one octet has an octet below 128
  have hbeyond (hle : 128 ≤ b.toNat) : c.toNat = b.toNat := by omega
  generalize String.utf8EncodeChar c = octets at h hoctets
  cases hoctets with
  | one hlt =>
    rw [List.mem_singleton.mp h, UInt8.toNat_ofNat']
    omega
  | two hlo hhi => exact hbeyond (le_of_mem_cons (by omega) (by omega) [_] b h)
  | three hlo hhi => exact hbeyond (le_of_mem_cons (by omega) (by omega) [_, _] b h)
  | four hlo => exact hbeyond (le_of_mem_cons (by omega) (by omega) [_, _, _] b h)

/-- An octet of ASCII is in `utf8` of a text only if its character is in the text. -/
theorem not_mem_utf8 {text : String} {c : Char} {b : UInt8} (hb : b.toNat < 128)
    (hc : c.toNat = b.toNat) (h : c ∉ text.toList) : b ∉ utf8 text := by
  intro hmem
  obtain ⟨d, hd, hoctet⟩ := List.mem_flatMap.mp hmem
  have hsame : d = c := by
    rw [← Char.ofNat_toNat d, toNat_eq_of_mem_utf8EncodeChar hb hoctet, ← hc, Char.ofNat_toNat]
  exact h (hsame ▸ hd)

end Utf8

end WasiHost
