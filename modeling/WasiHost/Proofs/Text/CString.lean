import WasiHost.Proofs.Text.WellFormed
import WasiHost.Trace

/-!
# Quoted octets are read back

A trace writes octets as a C program would, and here they are read as a C compiler would: an octal
escape goes on as long as there are digits, up to three. So an escape must not run into what follows
it. It never does: an escape of three digits is full, and one of fewer is only written where no
digit follows, be it because the next octet is none or because the string is cut there.

* **`CString.octet?`**, **`CString.read`** — one octet of a string, and all of them.
* **`CString.bareQuotes`** — where a text has double quotes that no backslash stands before.
* **`Trace.octet?_escape`** — the step: of an escaped octet and what follows, the octet is read.
* **`Trace.read_escapeAll`** — and so all octets are.
* **`Trace.quote_reads_back`** — the shape of a quoted string, and what is read between its quotes.
-/

namespace WasiHost

namespace CString

/-- The number that an octal digit stands for. -/
def octalValue? (c : Char) : Option Nat :=
  if '0'.toNat ≤ c.toNat ∧ c.toNat ≤ '7'.toNat then some (c.toNat - '0'.toNat) else none

/-- Goes on with an octal number for as long as there are digits, but at most for `more` of them. -/
def readOctal : (more value : Nat) → List Char → Nat × List Char
  | more + 1, value, c :: rest =>
    match octalValue? c with
    | some d => readOctal more (8 * value + d) rest
    | none => (value, c :: rest)
  | _, value, text => (value, text)

/-- The octet that the characters behind a backslash stand for, and the characters behind those. -/
def escaped? : List Char → Option (UInt8 × List Char)
  | [] => none
  | c :: rest =>
    if c = '\\' ∨ c = '"' then some (UInt8.ofNat c.toNat, rest)
    else if c = 't' then some (0x09, rest)
    else if c = 'n' then some (0x0a, rest)
    else
      match octalValue? c with
      | none => none
      | some d =>
        let (value, rest) := readOctal 2 d rest
        if value < 256 then some (UInt8.ofNat value, rest) else none

/-- The first octet of a string between quotes, and the characters behind it. -/
def octet? : List Char → Option (UInt8 × List Char)
  | [] => none
  | c :: rest =>
    if c = '\\' then escaped? rest
    else if c = '"' then none
    else if c.toNat < 128 then some (UInt8.ofNat c.toNat, rest)
    else none

/-- `readOctal` takes characters off the text, or none. -/
theorem length_readOctal (more value : Nat) (text : List Char) :
    (readOctal more value text).2.length ≤ text.length := by
  -- on how many digits may still come
  induction more generalizing value text with
  | zero => exact Nat.le_refl _
  | succ more ih =>
    cases text with
    | nil => exact Nat.le_refl _
    | cons c rest =>
      rw [readOctal]
      cases octalValue? c with
      | none => exact Nat.le_refl _
      | some d => exact Nat.le_succ_of_le (ih _ _)

/-- `escaped?` takes at least the character behind the backslash. -/
theorem length_escaped? {text more : List Char} {b : UInt8} (h : escaped? text = some (b, more)) :
    more.length < text.length := by
  cases text with
  | nil => cases h
  | cons c rest =>
    rw [escaped?] at h
    split at h
    · cases h
      exact Nat.lt_succ_self _
    split at h
    · cases h
      exact Nat.lt_succ_self _
    split at h
    · cases h
      exact Nat.lt_succ_self _
    -- behind the backslash stands a mark, or a digit with at most two more
    cases hdigit : octalValue? c with
    | none =>
      rw [hdigit] at h
      cases h
    | some d =>
      rw [hdigit] at h
      dsimp only at h
      split at h
      · cases h
        exact Nat.lt_succ_of_le (length_readOctal 2 d rest)
      · cases h

/-- An octet takes at least one character, so `read` comes to an end. -/
theorem length_octet? {text more : List Char} {b : UInt8} (h : octet? text = some (b, more)) :
    more.length < text.length := by
  cases text with
  | nil => cases h
  | cons c rest =>
    rw [octet?] at h
    split at h
    · exact Nat.lt_succ_of_lt (length_escaped? h)
    split at h
    · cases h
    split at h
    · cases h
      exact Nat.lt_succ_self _
    · cases h

/-- The octets of a string between quotes, if it is one. -/
def read (text : List Char) : Option Bytes :=
  if text = [] then some []
  else
    match _hoctet : octet? text with
    | none => none
    | some (b, more) => (read more).map (b :: ·)
termination_by text.length
decreasing_by exact length_octet? _hoctet

@[simp] theorem read_nil : read [] = some [] := by
  rw [read, if_pos rfl]

/-- The equation of `read` for a text that begins with an octet. It hides the proof of termination
from what follows. -/
theorem read_of_octet? {text more : List Char} {b : UInt8} (h : octet? text = some (b, more)) :
    read text = (read more).map (b :: ·) := by
  have hne : text ≠ [] := by
    rintro rfl
    cases h
  rw [read, if_neg hne]
  split
  · next hnone =>
    cases h.symm.trans hnone
  · next hsome =>
    cases h.symm.trans hsome
    rfl

/-- The places, counted from `i` on, of the double quotes of a text that no backslash stands before;
`escaped` tells whether one stands before the first character. -/
def bareQuotesFrom : (i : Nat) → (escaped : Bool) → List Char → List Nat
  | _, _, [] => []
  | i, true, _ :: rest => bareQuotesFrom (i + 1) false rest
  | i, false, c :: rest =>
    if c = '\\' then bareQuotesFrom (i + 1) true rest
    else if c = '"' then i :: bareQuotesFrom (i + 1) false rest
    else bareQuotesFrom (i + 1) false rest

/-- The places of the double quotes of a text that no backslash stands before. -/
def bareQuotes (text : List Char) : List Nat :=
  bareQuotesFrom 0 false text

/-- Whether a character is one of ASCII that shows. -/
def Printable (c : Char) : Prop :=
  0x20 ≤ c.toNat ∧ c.toNat ≤ 0x7e

instance (c : Char) : Decidable (Printable c) :=
  inferInstanceAs (Decidable (_ ∧ _))

/-- Characters that are no quotes and no backslashes add nothing to `bareQuotesFrom`. -/
theorem bareQuotesFrom_append {plain : List Char} (h : ∀ c ∈ plain, c ≠ '\\' ∧ c ≠ '"') (i : Nat)
    (text : List Char) :
    bareQuotesFrom i false (plain ++ text) = bareQuotesFrom (i + plain.length) false text := by
  induction plain generalizing i with
  | nil => rfl
  | cons c rest ih =>
    obtain ⟨⟨hbackslash, hquote⟩, hrest⟩ := List.forall_mem_cons.mp h
    rw [List.cons_append, bareQuotesFrom, if_neg hbackslash, if_neg hquote, ih hrest,
      List.length_cons, Nat.add_assoc, Nat.add_comm 1]

/-- Nor does a backslash with one character behind it. -/
theorem bareQuotesFrom_escape (c : Char) {plain : List Char}
    (h : ∀ c ∈ plain, c ≠ '\\' ∧ c ≠ '"') (i : Nat) (text : List Char) :
    bareQuotesFrom i false ('\\' :: c :: plain ++ text) =
      bareQuotesFrom (i + ('\\' :: c :: plain).length) false text := by
  show bareQuotesFrom (i + 1 + 1) false (plain ++ text) = _
  rw [bareQuotesFrom_append h]
  congr 1
  simp only [List.length_cons]
  omega

/-! ## Octal digits

The one place where escape and text could run together. A reader takes up to three digits, so a
numeral of three is complete by itself (`octet?_octalFixed`), and a shorter one if no digit follows
(`octet?_octal`). -/

/-- A digit below eight stands for itself, shows, and is none of the characters that mean something
else behind a backslash. -/
theorem digit_cases {n : Nat} (h : n < 8) :
    octalValue? (Numeral.digit n) = some n ∧ Printable (Numeral.digit n) ∧
      Numeral.digit n ≠ '\\' ∧ Numeral.digit n ≠ '"' ∧ Numeral.digit n ≠ 't' ∧
      Numeral.digit n ≠ 'n' := by
  have hall : ∀ n : Fin 8, octalValue? (Numeral.digit n) = some n.val ∧
      Printable (Numeral.digit n) ∧ Numeral.digit n ≠ '\\' ∧ Numeral.digit n ≠ '"' ∧
      Numeral.digit n ≠ 't' ∧ Numeral.digit n ≠ 'n' := by decide
  exact hall ⟨n, h⟩

/-- `readOctal` adds a digit to the number for as long as there is room for more. -/
theorem readOctal_digit (more value : Nat) {n : Nat} (h : n < 8) (text : List Char) :
    readOctal (more + 1) value (Numeral.digit n :: text) = readOctal more (8 * value + n) text := by
  rw [readOctal, (digit_cases h).1]

/-- Where no digit follows, `readOctal` has the number complete. -/
theorem readOctal_of_stop (more value : Nat) {text : List Char}
    (h : ∀ c ∈ text.head?, octalValue? c = none) : readOctal more value text = (value, text) := by
  cases more with
  | zero => rfl
  | succ more =>
    cases text with
    | nil => rfl
    | cons c rest => rw [readOctal, h c rfl]

/-- A backslash and a digit begin an octal escape. -/
theorem octet?_digit {n value : Nat} (hn : n < 8) {text more : List Char}
    (hread : readOctal 2 n text = (value, more)) (hvalue : value < 256) :
    octet? ('\\' :: Numeral.digit n :: text) = some (UInt8.ofNat value, more) := by
  obtain ⟨hoctal, -, hbackslash, hquote, ht, hnewline⟩ := digit_cases hn
  rw [octet?, if_pos rfl, escaped?, if_neg (not_or.mpr ⟨hbackslash, hquote⟩), if_neg ht,
    if_neg hnewline, hoctal]
  simp only [hread, if_pos hvalue]

/-- `octet?` reads three digits as the octet, whatever follows them. -/
theorem octet?_octalFixed (b : UInt8) (text : List Char) :
    octet? ('\\' :: Numeral.octalFixed b ++ text) = some (b, text) := by
  have hb := b.toNat_lt
  have hread : readOctal 2 (b.toNat / 64)
      (Numeral.digit (b.toNat / 8 % 8) :: Numeral.digit (b.toNat % 8) :: text) =
        (b.toNat, text) := by
    rw [readOctal_digit _ _ (by omega), readOctal_digit _ _ (by omega),
      show 8 * (8 * (b.toNat / 64) + b.toNat / 8 % 8) + b.toNat % 8 = b.toNat by omega]
    rfl
  have hoctet := octet?_digit (by omega) hread (by omega)
  rwa [UInt8.ofNat_toNat] at hoctet

/-- `octet?` reads as many digits as needed as the octet where no digit follows. -/
theorem octet?_octal (b : UInt8) {text : List Char}
    (h : ∀ c ∈ text.head?, octalValue? c = none) :
    octet? ('\\' :: Numeral.octal b ++ text) = some (b, text) := by
  have hb := b.toNat_lt
  unfold Numeral.octal
  split
  · -- one digit: what follows is none, so it ends there
    have hoctet := octet?_digit (by omega) (readOctal_of_stop 2 b.toNat h) (by omega)
    rwa [UInt8.ofNat_toNat] at hoctet
  split
  · -- two digits, and three below are fixed in any case
    have hread : readOctal 2 (b.toNat / 8) (Numeral.digit (b.toNat % 8) :: text) =
        (b.toNat, text) := by
      rw [readOctal_digit _ _ (by omega), readOctal_of_stop _ _ h,
        show 8 * (b.toNat / 8) + b.toNat % 8 = b.toNat by omega]
    have hoctet := octet?_digit (by omega) hread (by omega)
    rwa [UInt8.ofNat_toNat] at hoctet
  · exact octet?_octalFixed b text

/-- `octalFixed` consists of octal digits, and there is one at least. -/
theorem octalFixed_eq (b : UInt8) :
    ∃ (n : Nat) (ns : List Nat),
      Numeral.octalFixed b = Numeral.digit n :: ns.map Numeral.digit ∧ n < 8 ∧ ∀ m ∈ ns, m < 8 := by
  have hb := b.toNat_lt
  refine ⟨b.toNat / 64, [b.toNat / 8 % 8, b.toNat % 8], rfl, by omega, ?_⟩
  exact List.forall_mem_cons.mpr ⟨by omega, List.forall_mem_singleton.mpr (by omega)⟩

/-- The same of the numeral without leading zeros: see `octalFixed_eq`. -/
theorem octal_eq (b : UInt8) :
    ∃ (n : Nat) (ns : List Nat),
      Numeral.octal b = Numeral.digit n :: ns.map Numeral.digit ∧ n < 8 ∧ ∀ m ∈ ns, m < 8 := by
  unfold Numeral.octal
  split
  · exact ⟨b.toNat, [], rfl, by omega, by simp⟩
  split
  · refine ⟨b.toNat / 8, [b.toNat % 8], rfl, by omega, ?_⟩
    simp only [List.forall_mem_singleton]
    omega
  · exact octalFixed_eq b

/-- All characters of an octal escape show, and none of them is a bare quote. -/
theorem octalEscape {numeral : List Char} {n : Nat} {ns : List Nat}
    (h : numeral = Numeral.digit n :: ns.map Numeral.digit) (hn : n < 8) (hns : ∀ m ∈ ns, m < 8) :
    (∀ c ∈ '\\' :: numeral, Printable c) ∧
      ∀ i text, bareQuotesFrom i false ('\\' :: numeral ++ text) =
        bareQuotesFrom (i + ('\\' :: numeral).length) false text := by
  subst h
  constructor
  · intro c hc
    obtain rfl | hc := List.mem_cons.mp hc
    · decide
    obtain rfl | hc := List.mem_cons.mp hc
    · exact (digit_cases hn).2.1
    obtain ⟨m, hm, rfl⟩ := List.mem_map.mp hc
    exact (digit_cases (hns m hm)).2.1
  · apply bareQuotesFrom_escape
    intro c hc
    obtain ⟨m, hm, rfl⟩ := List.mem_map.mp hc
    -- no digit is taken for a backslash or a quote
    obtain ⟨-, -, hbackslash, hquote, -⟩ := digit_cases (hns m hm)
    exact ⟨hbackslash, hquote⟩

end CString

namespace Trace

open CString

/-- Whether an octet is written as a character that stands for itself. -/
def Plain (b : UInt8) : Prop :=
  0x20 ≤ b.toNat ∧ b.toNat ≤ 0x7e ∧ b.toNat ≠ 0x5c ∧ b.toNat ≠ 0x22

/-- The ways in which an octet is written, as the octet after it has them. -/
inductive Written (b : UInt8) (after : Option UInt8) : List Char → Prop where
  | marked (c : Char) (hc : c = '\\' ∨ c = '"') (hb : UInt8.ofNat c.toNat = b) :
      Written b after ['\\', c]
  | plain (h : Plain b) : Written b after [Char.ofNat b.toNat]
  | tab (hb : b = 0x09) : Written b after ['\\', 't']
  | newline (hb : b = 0x0a) : Written b after ['\\', 'n']
  | full : Written b after ('\\' :: Numeral.octalFixed b)
  | short (h : after.any isDigit = false) : Written b after ('\\' :: Numeral.octal b)

/-- `Trace.escape` writes an octet in one of the ways of `Written`, and a short numeral only if the
octet after it is no digit. -/
theorem written_escape (b : UInt8) (after : Option UInt8) : Written b after (escape b after) := by
  unfold escape
  split
  · next h =>
    obtain rfl | rfl := h
    · exact .marked '\\' (.inl rfl) rfl
    · exact .marked '"' (.inr rfl) rfl
  split
  · next hmarked hshows =>
    rw [UInt8.le_iff_toNat_le, UInt8.le_iff_toNat_le] at hshows
    rw [not_or, ← UInt8.toNat_inj, ← UInt8.toNat_inj] at hmarked
    -- printable, and no mark
    exact .plain ⟨hshows.1, hshows.2, hmarked⟩
  split
  · next htab => exact .tab htab
  split
  · next hnewline => exact .newline hnewline
  split
  · exact .full
  · next h => exact .short (Bool.not_eq_true _ ▸ h)

/-- The character that a plain octet is written as has its number. -/
theorem toNat_plain {b : UInt8} (h : Plain b) : (Char.ofNat b.toNat).toNat = b.toNat := by
  obtain ⟨-, hle, -⟩ := h
  exact Utf8.toNat_ofNat (.inl (by omega))

/-- It is neither a backslash nor a quote. -/
theorem ne_of_plain {b : UInt8} (h : Plain b) :
    Char.ofNat b.toNat ≠ '\\' ∧ Char.ofNat b.toNat ≠ '"' := by
  have hnat := toNat_plain h
  obtain ⟨-, -, hbackslash, hquote⟩ := h
  constructor
  · intro heq
    rw [heq] at hnat
    exact hbackslash hnat.symm
  · intro heq
    rw [heq] at hnat
    exact hquote hnat.symm

/-! ## One octet

What holds of the octets that are written is proved by the six ways in which one can be, the cases
of `Written`. Nothing below unfolds `Trace.escape` again. -/

/-- Whether all of a list are `Printable` can be computed, if it is written out. -/
theorem printable_of_all {chars : List Char}
    (h : chars.all (fun c => decide (Printable c)) = true) :
    ∀ c ∈ chars, Printable c :=
  fun c hc => of_decide_eq_true (List.all_eq_true.mp h c hc)

/-- Whatever way of `Written` an octet is written in, all characters show. -/
theorem printable_of_written {b : UInt8} {after : Option UInt8} {chars : List Char}
    (h : Written b after chars) : ∀ c ∈ chars, Printable c := by
  cases h with
  | marked c hc hb => obtain rfl | rfl := hc <;> exact printable_of_all (by decide)
  | plain hplain =>
    rw [List.forall_mem_singleton, Printable, toNat_plain hplain]
    exact ⟨hplain.1, hplain.2.1⟩
  | tab hb => exact printable_of_all (by decide)
  | newline hb => exact printable_of_all (by decide)
  | full =>
    obtain ⟨n, ns, hnumeral, hn, hns⟩ := octalFixed_eq b
    exact (octalEscape hnumeral hn hns).1
  | short hafter =>
    obtain ⟨n, ns, hnumeral, hn, hns⟩ := octal_eq b
    exact (octalEscape hnumeral hn hns).1

/-- Whatever way of `Written` it is written in, there is no bare quote in it: the one quote that may
be has a backslash before it. -/
theorem bareQuotesFrom_written {b : UInt8} {after : Option UInt8} {chars : List Char}
    (h : Written b after chars) (i : Nat) (text : List Char) :
    bareQuotesFrom i false (chars ++ text) = bareQuotesFrom (i + chars.length) false text := by
  -- in most of the ways the characters are given, so whether they show can be computed
  cases h with
  | marked c hc hb => exact bareQuotesFrom_escape c (by simp) i text
  | plain hplain =>
    apply bareQuotesFrom_append
    rw [List.forall_mem_singleton]
    exact ne_of_plain hplain
  | tab hb => exact bareQuotesFrom_escape 't' (by simp) i text
  | newline hb => exact bareQuotesFrom_escape 'n' (by simp) i text
  | full =>
    obtain ⟨n, ns, hnumeral, hn, hns⟩ := octalFixed_eq b
    exact (octalEscape hnumeral hn hns).2 i text
  | short hafter =>
    obtain ⟨n, ns, hnumeral, hn, hns⟩ := octal_eq b
    exact (octalEscape hnumeral hn hns).2 i text

/-- Of what is `Written` for an octet and what follows, `octet?` reads the octet, unless the octet
after it is no digit and still a digit follows. -/
theorem octet?_written {b : UInt8} {after : Option UInt8} {chars text : List Char}
    (h : Written b after chars)
    (htext : after.any isDigit = false → ∀ c ∈ text.head?, octalValue? c = none) :
    octet? (chars ++ text) = some (b, text) := by
  cases h with
  | marked c hc hb =>
    subst hb
    show escaped? (c :: text) = _
    rw [escaped?, if_pos hc]
  | plain hplain =>
    have hnat := toNat_plain hplain
    obtain ⟨hbackslash, hquote⟩ := ne_of_plain hplain
    -- a plain character is its own code
    have hascii : b.toNat < 128 := Nat.lt_of_le_of_lt hplain.2.1 (by decide)
    rw [List.singleton_append, octet?, if_neg hbackslash, if_neg hquote, hnat, if_pos hascii,
      UInt8.ofNat_toNat]
  | tab hb => rw [hb]; rfl
  | newline hb => rw [hb]; rfl
  | full => exact octet?_octalFixed b text
  | short hafter => exact octet?_octal b (htext hafter)

/-- What is written for octets begins with an octal digit only if the first octet is a digit. -/
theorem octalValue?_head (bytes : Bytes) (h : bytes.head?.any isDigit = false) :
    ∀ c ∈ (escapeAll bytes).head?, octalValue? c = none := by
  cases bytes with
  | nil => simp [escapeAll]
  | cons b rest =>
    -- everything but a plain octet begins with a backslash
    have hwritten := written_escape b rest.head?
    rw [escapeAll]
    generalize escape b rest.head? = chars at hwritten
    cases hwritten with
    | plain hplain =>
      rintro c hc
      cases hc
      have hnot : ¬ (48 ≤ b.toNat ∧ b.toNat ≤ 57) := by
        simpa [isDigit] using h
      have hzero : '0'.toNat = 48 := rfl
      have hseven : '7'.toNat = 55 := rfl
      rw [octalValue?, toNat_plain hplain, if_neg (by omega)]
    | _ =>
      rintro c hc
      cases hc
      rfl

/-- The step of a reader: `octet?` reads what was written for an octet as that octet, and leaves
what was written for the others. -/
theorem octet?_escape (b : UInt8) (rest : Bytes) :
    octet? (escape b rest.head? ++ escapeAll rest) = some (b, escapeAll rest) :=
  octet?_written (written_escape b rest.head?) (octalValue?_head rest)

/-! ## All octets

By induction on the octets, with the lemma on one octet as the step. The octet after the one at hand
is the head of the rest. -/

/-- All octets are read back, each by `octet?_escape`. -/
theorem read_escapeAll (bytes : Bytes) : read (escapeAll bytes) = some bytes := by
  induction bytes with
  | nil => exact read_nil
  | cons b rest ih =>
    rw [escapeAll, read_of_octet? (octet?_escape b rest), ih]
    rfl

theorem printable_escapeAll (bytes : Bytes) : ∀ c ∈ escapeAll bytes, Printable c := by
  induction bytes with
  | nil => simp [escapeAll]
  | cons b rest ih =>
    rw [escapeAll, List.forall_mem_append]
    exact ⟨printable_of_written (written_escape b rest.head?), ih⟩

theorem bareQuotesFrom_escapeAll (bytes : Bytes) (i : Nat) (text : List Char) :
    bareQuotesFrom i false (escapeAll bytes ++ text) =
      bareQuotesFrom (i + (escapeAll bytes).length) false text := by
  induction bytes generalizing i with
  | nil => rfl
  | cons b rest ih =>
    rw [escapeAll, List.append_assoc, bareQuotesFrom_written (written_escape b rest.head?), ih,
      List.length_append, Nat.add_assoc]

/-- `quote` puts the octets up to the limit in quotes, and dots behind if there were more. -/
theorem toList_quote (bytes : Bytes) (limit : Nat) :
    (quote bytes limit).toList = '"' :: escapeAll (bytes.take limit) ++
      '"' :: (if limit < bytes.length then ['.', '.', '.'] else []) :=
  String.toList_ofList

/-- The only bare quotes of `quote` are those around the octets. -/
theorem bareQuotes_quote (bytes : Bytes) (limit : Nat) :
    bareQuotes (quote bytes limit).toList = [0, (escapeAll (bytes.take limit)).length + 1] := by
  have hdots : ∀ i, bareQuotesFrom i false
      (if limit < bytes.length then ['.', '.', '.'] else []) = [] := by
    intro i
    split <;> rfl
  rw [toList_quote, List.cons_append]
  show 0 :: bareQuotesFrom 1 false _ = _
  rw [bareQuotesFrom_escapeAll, Nat.add_comm]
  show [0, _] ++ bareQuotesFrom _ false _ = _
  rw [hdots]
  rfl

theorem printable_quote (bytes : Bytes) (limit : Nat) :
    ∀ c ∈ (quote bytes limit).toList, Printable c := by
  have hquote : Printable '"' := by decide
  have hdots : ∀ c ∈ if limit < bytes.length then ['.', '.', '.'] else [], Printable c := by
    split <;> exact printable_of_all (by decide)
  rw [toList_quote, List.forall_mem_append, List.forall_mem_cons, List.forall_mem_cons]
  exact ⟨⟨hquote, printable_escapeAll _⟩, hquote, hdots⟩

/-- `quote` is injective on strings that are not cut. -/
theorem quote_inj {bytes other : Bytes} {limit : Nat} (h : bytes.length ≤ limit)
    (h' : other.length ≤ limit) (hquote : quote bytes limit = quote other limit) :
    bytes = other := by
  have htext := congrArg String.toList hquote
  rw [toList_quote, toList_quote, if_neg (Nat.not_lt_of_le h), if_neg (Nat.not_lt_of_le h'),
    List.take_of_length_le h, List.take_of_length_le h', List.append_cancel_right_eq,
    List.cons.injEq] at htext
  -- what stands between the quotes is read on both sides
  have hread := congrArg read htext.2
  rw [read_escapeAll, read_escapeAll] at hread
  exact Option.some.inj hread

/-- A quoted string is printable. It stands between two double quotes, and no others are bare;
behind them there are dots exactly if it was cut. Read between the quotes it gives the octets it was
made of, up to the cut. So strings that are not cut look different if they are different. -/
theorem quote_reads_back (bytes : Bytes) (limit : Nat) :
    (∀ c ∈ (quote bytes limit).toList, Printable c) ∧
      (∃ body, (quote bytes limit).toList =
          '"' :: body ++ '"' :: (if limit < bytes.length then ['.', '.', '.'] else []) ∧
        bareQuotes (quote bytes limit).toList = [0, body.length + 1] ∧
        read body = some (bytes.take (min bytes.length limit))) ∧
      ∀ other : Bytes, bytes.length ≤ limit → other.length ≤ limit →
        quote bytes limit = quote other limit → bytes = other := by
  refine ⟨printable_quote bytes limit, ⟨escapeAll (bytes.take limit), toList_quote bytes limit,
    bareQuotes_quote bytes limit, ?_⟩, fun other h h' hquote => quote_inj h h' hquote⟩
  rw [read_escapeAll, Nat.min_comm, ← List.take_take, List.take_length]

/-- Whether an escape has to be full depends on what is left behind the cut. -/
example : (quote [0x01, 0x37] 2).toList = ['"', '\\', '0', '0', '1', '7', '"'] ∧
    (quote [0x01, 0x37] 1).toList = ['"', '\\', '1', '"', '.', '.', '.'] := by
  decide

end Trace

end WasiHost
