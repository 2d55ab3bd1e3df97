import WasiHost.Proofs.Text.Utf8

/-!
# Only octets of texts are read

The strict reader refuses whatever is not the octets of a text: no overlong form, no surrogate,
nothing cut short. So what it reads it has read from the octets of just that text.

* **`exists_last`**, **`exists_more`** — an octet that is taken carries six bits and is in range.
* **`first_cases`** — what an octet can begin.
* **`exists_character`** — the octets that are read begin with those of the first character.
* **`decode?_eq_some_iff`** — the reader accepts the octets of a text, and nothing else.
-/

namespace WasiHost

namespace Utf8

/-! ## Octets that continue a character

Here the reader is followed backwards: it has accepted, so what can have come next? In place of a
bad octet or the end of the input it would have given out a bad piece, and `chars?` would have found
that. -/

variable {low high : UInt8} {gathered owed : Nat} {bytes : Bytes} {chars : List Char}

/-- An octet in the range of continuations carries six bits. -/
theorem eq_continuation {b : UInt8} (hlow : 128 ≤ b.toNat) (hhigh : b.toNat ≤ 191) :
    b = continuation (b.toNat - 128) := by
  rw [← UInt8.toNat_inj, toNat_continuation]
  omega

/-- While a character is under way, `pieces` has an octet in its range next, or reads nothing. -/
theorem exists_next {u : Unfinished} (hlow : 128 ≤ u.low.toNat) (hhigh : u.high.toNat ≤ 191)
    (h : chars? (pieces (some u) bytes) = some chars) :
    ∃ bits rest, bits < 64 ∧ u.low.toNat ≤ bits + 128 ∧ bits + 128 ≤ u.high.toNat ∧
      bytes = continuation bits :: rest ∧
      chars? ((u.add (continuation bits)).1 ++ pieces (u.add (continuation bits)).2 rest) =
        some chars := by
  cases bytes with
  | nil => cases h
  | cons b rest =>
    by_cases hin : u.low ≤ b ∧ b ≤ u.high
    · have hrange := hin
      rw [UInt8.le_iff_toNat_le, UInt8.le_iff_toNat_le] at hrange
      -- an octet in the range is a continuation
      have hb := eq_continuation (b := b) (by omega) (by omega)
      refine ⟨b.toNat - 128, rest, by omega, by omega, by omega, by rw [← hb], ?_⟩
      rw [← hb]
      rw [pieces, step, if_pos hin] at h
      exact h
    · -- any other makes a replacement, and then there are no characters
      rw [pieces, step, if_neg hin] at h
      cases h

/-- The last octet of a character completes it: what `exists_next` finds is all that was owed. -/
theorem exists_last (hlow : 128 ≤ low.toNat) (hhigh : high.toNat ≤ 191)
    (h : chars? (pieces (some ⟨0, low, high, gathered⟩) bytes) = some chars) :
    ∃ bits rest later, bits < 64 ∧ low.toNat ≤ bits + 128 ∧ bits + 128 ≤ high.toNat ∧
      bytes = continuation bits :: rest ∧ chars = Char.ofNat (gathered * 64 + bits) :: later ∧
      chars? (pieces none rest) = some later := by
  obtain ⟨bits, rest, hbits, hlo, hhi, hbytes, hrest⟩ := exists_next hlow hhigh h
  simp only [Unfinished.add, toNat_continuation_sub, Nat.mod_eq_of_lt hbits, List.singleton_append,
    chars?] at hrest
  obtain ⟨later, hlater, rfl⟩ := Option.map_eq_some_iff.mp hrest
  exact ⟨bits, rest, later, hbits, hlo, hhi, hbytes, rfl, hlater⟩

/-- Any other octet adds its bits, and after it any `continuation` may come next. -/
theorem exists_more (hlow : 128 ≤ low.toNat) (hhigh : high.toNat ≤ 191)
    (h : chars? (pieces (some ⟨owed + 1, low, high, gathered⟩) bytes) = some chars) :
    ∃ bits rest, bits < 64 ∧ low.toNat ≤ bits + 128 ∧ bits + 128 ≤ high.toNat ∧
      bytes = continuation bits :: rest ∧
      chars? (pieces (some ⟨owed, 0x80, 0xBF, gathered * 64 + bits⟩) rest) = some chars := by
  obtain ⟨bits, rest, hbits, hlo, hhi, hbytes, hrest⟩ := exists_next hlow hhigh h
  simp only [Unfinished.add, toNat_continuation_sub, Nat.mod_eq_of_lt hbits, List.nil_append]
    at hrest
  exact ⟨bits, rest, hbits, hlo, hhi, hbytes, hrest⟩

/-! ## First octets

An octet begins one of four kinds of character or none at all, so there are as many cases below, and
one of them is absurd. -/

/-- What an octet can begin: a character of one octet, nothing, or one of two, three or four. -/
theorem first_cases (b : UInt8) :
    (b.toNat < 128 ∧ first b = ([some (Char.ofNat b.toNat)], none)) ∨ first b = ([none], none) ∨
      (∃ n, 2 ≤ n ∧ n < 32 ∧ b = UInt8.ofNat (n + 192)) ∨
      (∃ n, n < 16 ∧ b = UInt8.ofNat (n + 224)) ∨ ∃ n, n < 5 ∧ b = UInt8.ofNat (n + 240) := by
  have hofNat {n k : Nat} (h : b.toNat = n + k) : b = UInt8.ofNat (n + k) := by
    rw [← h, UInt8.ofNat_toNat]
  have hlt := b.toNat_lt
  by_cases hone : b.toNat < 128
  · refine .inl ⟨hone, ?_⟩
    rw [first, if_pos (UInt8.lt_iff_toNat_lt.mpr hone)]
  by_cases htwo : 194 ≤ b.toNat ∧ b.toNat < 224
  · exact .inr (.inr (.inl ⟨b.toNat - 192, by omega, by omega, hofNat (by omega)⟩))
  by_cases hthree : 224 ≤ b.toNat ∧ b.toNat < 240
  · exact .inr (.inr (.inr (.inl ⟨b.toNat - 224, by omega, hofNat (by omega)⟩)))
  by_cases hfour : 240 ≤ b.toNat ∧ b.toNat < 245
  · exact .inr (.inr (.inr (.inr ⟨b.toNat - 240, by omega, hofNat (by omega)⟩)))
  -- what is left can begin nothing: a continuation, an overlong form, or beyond the last character
  refine .inr (.inl ?_)
  simp only [first, UInt8.lt_iff_toNat_lt, ← UInt8.toNat_inj]
  have hend : (0xF4 : UInt8).toNat = 244 := rfl
  grind

/-! ## Characters

The digits that were read make up a number, and the encoding of its character has those digits
again. What the bounds on the second octet exclude is just what would have another encoding, or
none. -/

/-- `Char.ofNat` of a number that is no surrogate and in range has that number. -/
theorem toNat_ofNat {n : Nat} (h : n < 55296 ∨ 57343 < n ∧ n < 1114112) :
    (Char.ofNat n).toNat = n := by
  have hvalid : n.isValidChar := h
  rw [Char.ofNat, dif_pos hvalid]
  rfl

/-- Only the six lowest bits count. -/
theorem continuation_add (n bits : Nat) : continuation (n * 64 + bits) = continuation bits := by
  rw [← UInt8.toNat_inj, toNat_continuation, toNat_continuation]
  omega

/-- A character of one octet, by its number. Of the forms of `Encodes` the others ask for a greater
number. -/
theorem utf8EncodeChar_one {n : Nat} (h : n < 128) :
    String.utf8EncodeChar (Char.ofNat n) = [UInt8.ofNat n] := by
  have hoctets := encodes_utf8EncodeChar (Char.ofNat n)
  have hnumber : (Char.ofNat n).toNat = n := toNat_ofNat (by omega)
  generalize String.utf8EncodeChar (Char.ofNat n) = octets at hoctets
  -- only the form of one octet is possible, the others contradict the bound on the number
  cases hoctets with
  | one _ => rw [hnumber]
  | _ => omega

/-- `String.utf8EncodeChar` of a character of two octets, by the digits that these carry. -/
theorem utf8EncodeChar_two {n bits : Nat} (hlo : 2 ≤ n) (hhi : n < 32) (hbits : bits < 64) :
    String.utf8EncodeChar (Char.ofNat (n * 64 + bits)) =
      [UInt8.ofNat (n + 192), continuation bits] := by
  have hoctets := encodes_utf8EncodeChar (Char.ofNat (n * 64 + bits))
  have hnumber : (Char.ofNat (n * 64 + bits)).toNat = n * 64 + bits := toNat_ofNat (by omega)
  generalize String.utf8EncodeChar (Char.ofNat (n * 64 + bits)) = octets at hoctets
  cases hoctets with
  | two _ _ => rw [hnumber, continuation_add, show (n * 64 + bits) / 64 = n by omega]
  | _ => omega

/-- A character of three octets. It is too great for two by `hlong`, and no surrogate by
`hvalid`. -/
theorem utf8EncodeChar_three {n high low : Nat} (hn : n < 16) (hhigh : high < 64) (hlow : low < 64)
    (hlong : n = 0 → 32 ≤ high) (hvalid : n = 13 → high < 32) :
    String.utf8EncodeChar (Char.ofNat ((n * 64 + high) * 64 + low)) =
      [UInt8.ofNat (n + 224), continuation high, continuation low] := by
  have hoctets := encodes_utf8EncodeChar (Char.ofNat ((n * 64 + high) * 64 + low))
  have hnumber : (Char.ofNat ((n * 64 + high) * 64 + low)).toNat = (n * 64 + high) * 64 + low :=
    toNat_ofNat (by omega)
  generalize String.utf8EncodeChar (Char.ofNat ((n * 64 + high) * 64 + low)) = octets at hoctets
  cases hoctets with
  | three _ _ =>
    rw [hnumber, continuation_add, show ((n * 64 + high) * 64 + low) / 64 = n * 64 + high by omega,
      continuation_add, show ((n * 64 + high) * 64 + low) / 4096 = n by omega]
  | _ => omega

/-- A character of four octets. It is too great for three by `hlong`, and in range by `hvalid`. -/
theorem utf8EncodeChar_four {n high middle low : Nat} (hn : n < 5) (hhigh : high < 64)
    (hmiddle : middle < 64) (hlow : low < 64) (hlong : n = 0 → 16 ≤ high)
    (hvalid : n = 4 → high < 16) :
    String.utf8EncodeChar (Char.ofNat (((n * 64 + high) * 64 + middle) * 64 + low)) =
      [UInt8.ofNat (n + 240), continuation high, continuation middle, continuation low] := by
  have hoctets :=
    encodes_utf8EncodeChar (Char.ofNat (((n * 64 + high) * 64 + middle) * 64 + low))
  have hnumber : (Char.ofNat (((n * 64 + high) * 64 + middle) * 64 + low)).toNat =
      ((n * 64 + high) * 64 + middle) * 64 + low :=
    toNat_ofNat (by omega)
  -- the number lies in the range of four octets, and each octet is a digit to the base 64
  generalize String.utf8EncodeChar (Char.ofNat (((n * 64 + high) * 64 + middle) * 64 + low)) =
    octets at hoctets
  cases hoctets with
  | four _ =>
    rw [hnumber, continuation_add,
      show (((n * 64 + high) * 64 + middle) * 64 + low) / 64 = (n * 64 + high) * 64 + middle
        by omega,
      continuation_add,
      show (((n * 64 + high) * 64 + middle) * 64 + low) / 4096 = n * 64 + high by omega,
      continuation_add,
      show (((n * 64 + high) * 64 + middle) * 64 + low) / 262144 = n by omega]
  | _ => omega

/-- Octets that `pieces` reads begin with those of the first character. -/
theorem exists_character {b : UInt8} (h : chars? (pieces none (b :: bytes)) = some chars) :
    ∃ c rest later, b :: bytes = String.utf8EncodeChar c ++ rest ∧ chars = c :: later ∧
      chars? (pieces none rest) = some later := by
  have hwide : (0x80 : UInt8).toNat = 128 ∧ (0xBF : UInt8).toNat = 191 := ⟨rfl, rfl⟩
  rcases first_cases b with ⟨hone, hfirst⟩ | hfirst | ⟨n, hlo, hhi, rfl⟩ | ⟨n, hn, rfl⟩ |
    ⟨n, hn, rfl⟩
  · simp only [pieces, step, hfirst, List.singleton_append, chars?] at h
    obtain ⟨later, hlater, rfl⟩ := Option.map_eq_some_iff.mp h
    refine ⟨_, bytes, later, ?_, rfl, hlater⟩
    rw [utf8EncodeChar_one hone, UInt8.ofNat_toNat, List.singleton_append]
  · simp only [pieces, step, hfirst, List.singleton_append, chars?] at h
    cases h
  · -- the digits that were read are those of the number of the character
    rw [pieces_of_first (first_two hlo hhi)] at h
    obtain ⟨bits, rest, later, hbits, -, -, rfl, hchars, hlater⟩ :=
      exists_last (by omega) (by omega) h
    refine ⟨_, rest, later, ?_, hchars, hlater⟩
    rw [utf8EncodeChar_two hlo hhi hbits]
    rfl
  · -- the bounds of the second octet keep overlong forms and surrogates out
    rw [pieces_of_first (first_three hn)] at h
    obtain ⟨high, rest, hhigh, hlong, hvalid, rfl, hmore⟩ :=
      exists_more (by split <;> decide) (by split <;> decide) h
    obtain ⟨low, rest, later, hlow, -, -, rfl, hchars, hlater⟩ :=
      exists_last (by omega) (by omega) hmore
    refine ⟨_, rest, later, ?_, hchars, hlater⟩
    rw [utf8EncodeChar_three hn hhigh hlow]
    · rfl
    · intro hzero
      rw [if_pos hzero] at hlong
      change 160 ≤ _ at hlong
      omega
    · intro hthirteen
      rw [if_pos hthirteen] at hvalid
      change _ ≤ 159 at hvalid
      omega
  · rw [pieces_of_first (first_four hn)] at h
    obtain ⟨high, rest, hhigh, hlong, hvalid, rfl, hmore⟩ :=
      exists_more (by split <;> decide) (by split <;> decide) h
    obtain ⟨middle, rest, hmiddle, -, -, rfl, hlast⟩ := exists_more (by omega) (by omega) hmore
    obtain ⟨low, rest, later, hlow, -, -, rfl, hchars, hlater⟩ :=
      exists_last (by omega) (by omega) hlast
    refine ⟨_, rest, later, ?_, hchars, hlater⟩
    rw [utf8EncodeChar_four hn hhigh hmiddle hlow]
    · rfl
    · intro hzero
      rw [if_pos hzero] at hlong
      change 144 ≤ _ at hlong
      omega
    · intro hfour
      rw [if_pos hfour] at hvalid
      change _ ≤ 143 at hvalid
      omega

/-! ## Texts

A text that is read determines the octets it was read from, and they were read by `decode?_utf8`. -/

/-- What `chars?` reads has been read from its own octets. -/
theorem eq_flatMap_of_chars? (h : chars? (pieces none bytes) = some chars) :
    bytes = chars.flatMap String.utf8EncodeChar := by
  -- a character at a time, so the induction is on the characters
  induction chars generalizing bytes with
  | nil =>
    cases bytes with
    | nil => rfl
    | cons b rest =>
      obtain ⟨_, _, _, -, hchars, -⟩ := exists_character h
      cases hchars
  | cons c later ih =>
    cases bytes with
    | nil => cases h
    | cons b rest =>
      obtain ⟨_, _, _, hbytes, hchars, hlater⟩ := exists_character h
      cases hchars
      rw [hbytes, List.flatMap_cons, ← ih hlater]

/-- `decode?` accepts the octets of a text, and nothing else. -/
theorem decode?_eq_some_iff {text : String} : decode? bytes = some text ↔ bytes = utf8 text := by
  constructor
  · intro h
    obtain ⟨chars, hchars, rfl⟩ := Option.map_eq_some_iff.mp h
    rw [utf8, String.toList_ofList]
    exact eq_flatMap_of_chars? hchars
  · rintro rfl
    exact decode?_utf8 text

end Utf8

end WasiHost
