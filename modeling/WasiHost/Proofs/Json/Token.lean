import Mathlib.Data.List.Basic
import Mathlib.Data.List.TakeWhile
import WasiHost.Json.Token

/-!
# Tokens of JSON text read back

What is written for a token is read as that token, whatever token comes next and however many blanks
are between them. Marks and strings end by themselves. A word or a numeral goes on as long as it
can, so it is read back where no letter and no character of a numeral follows.

* **`JsonToken.Spells`** — the texts that say given tokens.
* **`JsonToken.exists_written`**, **`JsonToken.lexFrom_written`** — the step inside a string: a
  character is written in one of three ways, and read back.
* **`JsonToken.exists_of_ofNumeral?`** — what a numeral is made of.
* **`JsonToken.ofNumeral?_toString`** — the numeral of an integer is read as that integer.
* **`JsonToken.lexFrom_chars`** — one token is read back.
* **`JsonToken.lex?_of_spells`** — and so are all tokens of a text.
-/

namespace WasiHost

namespace JsonToken

/-! ## Steps of the machine

`lexFrom` steps through the text one character at a time. A token that is one character is given out
at once; the others are gathered in a state, and end when a character comes that does not belong to
them. That character is then looked at as if nothing had been read, which is `lexFrom_of_ended`. -/

/-- `lexStep` without a token only moves `lexFrom` on. -/
theorem lexFrom_of_silent {state state' : LexState} {c : Char}
    (h : lexStep state c = some ([], state')) (text : List Char) :
    lexFrom state (c :: text) = lexFrom state' text := by
  rw [lexFrom, h]
  exact Option.map_id'

/-- `lexFrom` at a character that is a token by itself. -/
theorem lexFrom_of_mark {c : Char} {token : JsonToken}
    (h : lexStep .between c = some ([token], .between)) (text : List Char) :
    lexFrom .between (c :: text) = (lexFrom .between text).map (token :: ·) := by
  rw [lexFrom, h]
  rfl

theorem lexFrom_of_blank {c : Char} (h : isBlank c = true) (text : List Char) :
    lexFrom .between (c :: text) = lexFrom .between text := by
  refine lexFrom_of_silent ?_ text
  rw [lexStep, lexFirst, if_pos h]

/-- A token that ends where `text` goes on with something else, or ends as well: `lexEnd` and
`lexStep` say it is the same token. -/
theorem lexFrom_of_ended {state : LexState} {token : JsonToken} {text : List Char}
    (hstep : ∀ c ∈ text.head?, lexStep state c = lexAfter (some token) c)
    (hend : lexEnd state = some [token]) :
    lexFrom state text = (lexFrom .between text).map (token :: ·) := by
  cases text with
  | nil => exact hend
  | cons c rest =>
    -- the machine looks at the character afresh
    have hnext := hstep c rfl
    have hafresh : lexStep .between c = lexFirst c := rfl
    simp only [lexFrom, hnext, hafresh, lexAfter]
    cases lexFirst c with
    | none => rfl
    | some next => exact (Option.map_map (token :: ·) (next.1 ++ ·) (lexFrom next.2 rest)).symm

/-- `lexFrom` gathers the characters that go on with a token. By induction on `chars`, for every
`read`. -/
theorem lexFrom_gather {under : List Char → LexState} {chars : List Char}
    (h : ∀ c ∈ chars, ∀ read, lexStep (under read) c = some ([], under (c :: read)))
    (read text : List Char) :
    lexFrom (under read) (chars ++ text) = lexFrom (under (chars.reverse ++ read)) text := by
  induction chars generalizing read with
  | nil => rfl
  | cons c rest ih =>
    obtain ⟨hc, hrest⟩ := List.forall_mem_cons.mp h
    rw [List.cons_append, lexFrom_of_silent (hc read), ih hrest, List.reverse_cons,
      List.append_assoc]
    rfl

/-- A token whose characters are gathered is read where `text` does not go on with it. -/
theorem lexFrom_gathered {under : List Char → LexState} {c : Char} {rest text : List Char}
    {token : JsonToken} (hfirst : lexStep .between c = some ([], under [c]))
    (hgather : ∀ d ∈ rest, ∀ read, lexStep (under read) d = some ([], under (d :: read)))
    (hstop : ∀ d ∈ text.head?, lexStep (under (c :: rest).reverse) d = lexAfter (some token) d)
    (hend : lexEnd (under (c :: rest).reverse) = some [token]) :
    lexFrom .between (c :: rest ++ text) = (lexFrom .between text).map (token :: ·) := by
  -- the machine has the characters last first
  rw [List.cons_append, lexFrom_of_silent hfirst, lexFrom_gather hgather, ← List.reverse_cons]
  exact lexFrom_of_ended hstop hend

/-! ## Words

Words have no end mark. That one is read back depends on what follows it, which is the condition
`Parted`. -/

/-- Where a text begins, no word and no numeral goes on. -/
def Parted (text : List Char) : Prop :=
  ∀ c ∈ text.head?, isLetter c = false ∧ isNumeral c = false

theorem parted_nil : Parted [] := nofun

/-- The three words of `ofWord?` begin with a letter that begins no other token, and go on with
letters. -/
theorem exists_of_ofWord? {word : List Char} {token : JsonToken} (h : ofWord? word = some token) :
    ∃ c rest, word = c :: rest ∧ lexStep .between c = some ([], .word [c]) ∧
      ∀ d ∈ rest, isLetter d = true := by
  rw [ofWord?] at h
  split at h
  · next hword => exact ⟨_, _, hword, rfl, List.all_eq_true.mp rfl⟩
  split at h
  · next hword => exact ⟨_, _, hword, rfl, List.all_eq_true.mp rfl⟩
  split at h
  · next hword => exact ⟨_, _, hword, rfl, List.all_eq_true.mp rfl⟩
  · cases h

/-- A word is read where it is `Parted` from what follows. The case of `lexFrom_gathered` for
words. -/
theorem lexFrom_word {word text : List Char} {token : JsonToken} (h : ofWord? word = some token)
    (htext : Parted text) :
    lexFrom .between (word ++ text) = (lexFrom .between text).map (token :: ·) := by
  obtain ⟨c, rest, rfl, hfirst, hrest⟩ := exists_of_ofWord? h
  have hgather : ∀ d ∈ rest, ∀ read, lexStep (.word read) d = some ([], .word (d :: read)) := by
    intro d hd read
    rw [lexStep, if_pos (hrest d hd)]
  refine lexFrom_gathered hfirst hgather (fun d hd => ?_) ?_
  · have hletter : ¬ isLetter d = true := by simp [(htext d hd).1]
    rw [lexStep, if_neg hletter, List.reverse_reverse, h]
  · rw [lexEnd, List.reverse_reverse, h]
    rfl

/-! ## Numerals

A numeral is gathered by what characters may occur in any numeral, and checked for its form only at
the end. So it suffices here that a numeral has the right first character and no wrong ones:
`exists_of_ofNumeral?`. -/

/-- A digit `isNumeral`, and so is every character of a numeral, part by part. -/
theorem isNumeral_of_isDigit {c : Char} (h : isDigit c = true) : isNumeral c = true := by
  simp [isNumeral, h]

theorem isNumeral_of_isExponent {exponent : List Char} (h : isExponent exponent = true) :
    ∀ c ∈ exponent, isNumeral c = true := by
  cases exponent with
  | nil => nofun
  | cons c rest =>
    obtain ⟨hmark, hdigits⟩ := of_decide_eq_true h
    have hc : isNumeral c = true := by
      rcases hmark with rfl | rfl <;> rfl
    refine List.forall_mem_cons.mpr ⟨hc, ?_⟩
    have hnumerals {digits : List Char} (hall : digits.all isDigit = true) :
        ∀ d ∈ digits, isNumeral d = true :=
      fun d hd => isNumeral_of_isDigit (List.all_eq_true.mp hall d hd)
    -- a sign may stand before the digits
    split at hdigits
    · exact List.forall_mem_cons.mpr ⟨rfl, hnumerals hdigits.2⟩
    · exact List.forall_mem_cons.mpr ⟨rfl, hnumerals hdigits.2⟩
    · exact hnumerals hdigits.2

theorem isNumeral_of_isTail {tail : List Char} (h : isTail tail = true) :
    ∀ c ∈ tail, isNumeral c = true := by
  rw [isTail.eq_def] at h
  split at h
  · nofun
  · next rest =>
    obtain ⟨-, hexponent⟩ := of_decide_eq_true h
    refine List.forall_mem_cons.mpr ⟨rfl, ?_⟩
    -- the fraction is its digits and then an exponent, if any
    rw [← List.takeWhile_append_dropWhile (p := isDigit) (l := rest), List.forall_mem_append]
    constructor
    · exact fun d hd => isNumeral_of_isDigit (List.mem_takeWhile_imp hd)
    · rcases hexponent with hnone | hsome
      · rw [hnone]
        nofun
      · exact isNumeral_of_isExponent hsome
  · exact isNumeral_of_isExponent h

/-- A numeral behind its sign: one digit, and then characters that are `isNumeral`. -/
theorem isNumeral_of_parts {rest : List Char} (hwhole : isWhole (rest.takeWhile isDigit) = true)
    (htail : isTail (rest.dropWhile isDigit) = true) :
    ∃ c more, rest = c :: more ∧ isDigit c = true ∧ ∀ d ∈ more, isNumeral d = true := by
  cases rest with
  | nil => cases hwhole
  | cons c more =>
    have hc : isDigit c = true := by
      cases hdigit : isDigit c with
      | true => rfl
      | false =>
        -- without a digit the whole part would be empty
        rw [List.takeWhile_cons_of_neg (by simp [hdigit])] at hwhole
        cases hwhole
    refine ⟨c, more, rfl, hc, ?_⟩
    rw [List.dropWhile_cons_of_pos hc] at htail
    rw [← List.takeWhile_append_dropWhile (p := isDigit) (l := more), List.forall_mem_append]
    exact ⟨fun d hd => isNumeral_of_isDigit (List.mem_takeWhile_imp hd), isNumeral_of_isTail htail⟩

/-- What `ofNumeral?` accepts begins with a sign or a digit and goes on with characters that are
`isNumeral`. -/
theorem exists_of_ofNumeral? {numeral : List Char} {token : JsonToken}
    (h : ofNumeral? numeral = some token) :
    ∃ c rest, numeral = c :: rest ∧ beginsNumeral c = true ∧ ∀ d ∈ rest, isNumeral d = true := by
  rw [ofNumeral?.eq_def] at h
  split at h
  next negative rest hsign =>
  dsimp only at h
  split at h
  · next hparts =>
    obtain ⟨c, more, rfl, hc, hmore⟩ := isNumeral_of_parts hparts.1 hparts.2
    -- the sign, if there is one, is the first character; otherwise the first digit is
    split at hsign
    · cases hsign
      exact ⟨_, _, rfl, rfl, List.forall_mem_cons.mpr ⟨isNumeral_of_isDigit hc, hmore⟩⟩
    · cases hsign
      exact ⟨c, more, rfl, by simp [beginsNumeral, hc], hmore⟩
  · cases h

/-- A character that `beginsNumeral` is neither a blank nor a quote, so `lexStep` begins to
gather. -/
theorem lexStep_of_beginsNumeral {c : Char} (h : beginsNumeral c = true) :
    lexStep .between c = some ([], .numeral [c]) := by
  have hblank : ¬ isBlank c = true := by
    intro hblank
    rcases of_decide_eq_true hblank with rfl | rfl | rfl | rfl <;> cases h
  have hquote : c ≠ '"' := by
    rintro rfl
    cases h
  rw [lexStep, lexFirst, if_neg hblank, if_neg hquote, if_pos h]

/-- A numeral is read where it is `Parted` from what follows. The case of `lexFrom_gathered` for
numerals. -/
theorem lexFrom_numeral {numeral text : List Char} {token : JsonToken}
    (h : ofNumeral? numeral = some token) (htext : Parted text) :
    lexFrom .between (numeral ++ text) = (lexFrom .between text).map (token :: ·) := by
  obtain ⟨c, rest, rfl, hfirst, hrest⟩ := exists_of_ofNumeral? h
  have hgather : ∀ d ∈ rest, ∀ read,
      lexStep (.numeral read) d = some ([], .numeral (d :: read)) := by
    intro d hd read
    rw [lexStep, if_pos (hrest d hd)]
  refine lexFrom_gathered (lexStep_of_beginsNumeral hfirst) hgather (fun d hd => ?_) ?_
  · have hnumeral : ¬ isNumeral d = true := by simp [(htext d hd).2]
    rw [lexStep, if_neg hnumeral, List.reverse_reverse, h]
  · rw [lexEnd, List.reverse_reverse, h]
    rfl

/-! ## Numerals of integers

The library writes an integer with `Nat.toDigits`. Its digits have the form that `isWhole` asks for,
and the reader makes the same number of them. -/

/-- What `Nat.toDigits` writes are digits as the machine knows them. -/
theorem isDigit_of_mem_toDigits {n : Nat} {c : Char} (h : c ∈ Nat.toDigits 10 n) :
    isDigit c = true := by
  have hdigit := Nat.isDigit_of_mem_toDigits (by decide) (by decide) h
  rw [Char.isDigit, Bool.and_eq_true, decide_eq_true_iff, decide_eq_true_iff] at hdigit
  exact decide_eq_true hdigit

/-- `digitsValue` is the left inverse of `Nat.toDigits 10`. -/
theorem digitsValue_toDigits (n : Nat) : digitsValue (Nat.toDigits 10 n) = n :=
  Nat.ofDigitChars_ten_toDigits

theorem digitChar_ne_zero {n : Nat} (hpos : 0 < n) (hlt : n < 10) : n.digitChar ≠ '0' := by
  have hall : ∀ n : Fin 10, 0 < n.val → n.val.digitChar ≠ '0' := by decide
  exact hall ⟨n, hlt⟩ hpos

/-- `Nat.toDigits` does not begin with a zero, unless it is that of zero. -/
theorem head?_toDigits_ne {n : Nat} (h : 0 < n) : (Nat.toDigits 10 n).head? ≠ some '0' := by
  induction n using Nat.strongRecOn with
  | ind n ih =>
    -- the first digit is that of the number without its last one
    rcases Nat.lt_or_ge n 10 with hlt | hge
    · rw [Nat.toDigits_of_lt_base hlt, List.head?_cons, Ne, Option.some.injEq]
      exact digitChar_ne_zero h hlt
    · rw [Nat.toDigits_of_base_le (by decide) hge,
        List.head?_append_of_ne_nil _ Nat.toDigits_ne_nil]
      exact ih (n / 10) (by omega) (by omega)

/-- So they may stand at the beginning of a numeral: zero is written as `0` and nothing else begins
so. -/
theorem isWhole_toDigits (n : Nat) : isWhole (Nat.toDigits 10 n) = true := by
  refine decide_eq_true ⟨Nat.toDigits_ne_nil, ?_⟩
  rcases Nat.eq_zero_or_pos n with rfl | hpos
  · exact .inl rfl
  · exact .inr (head?_toDigits_ne hpos)

theorem takeWhile_toDigits (n : Nat) :
    (Nat.toDigits 10 n).takeWhile isDigit = Nat.toDigits 10 n :=
  List.takeWhile_eq_self_iff.mpr fun _ => isDigit_of_mem_toDigits

theorem dropWhile_toDigits (n : Nat) : (Nat.toDigits 10 n).dropWhile isDigit = [] :=
  List.dropWhile_eq_nil_iff.mpr fun _ => isDigit_of_mem_toDigits

/-- `ofNumeral?` reads the digits of a number as that number. -/
theorem ofNumeral?_toDigits (n : Nat) : ofNumeral? (Nat.toDigits 10 n) = some (integer n) := by
  have hsign (rest : List Char) (h : Nat.toDigits 10 n = '-' :: rest) : False := by
    have hdash : '-' ∈ Nat.toDigits 10 n := h ▸ List.mem_cons_self
    cases isDigit_of_mem_toDigits hdash
  rw [ofNumeral?.eq_2 _ hsign]
  simp [takeWhile_toDigits, dropWhile_toDigits, isWhole_toDigits, digitsValue_toDigits, isTail]

/-- With a dash in front `ofNumeral?` reads the negative. A dash before zero would be something
else. -/
theorem ofNumeral?_negative {n : Nat} (h : 0 < n) :
    ofNumeral? ('-' :: Nat.toDigits 10 n) = some (integer (-n)) := by
  have hne : n ≠ 0 := by omega
  simp [ofNumeral?, takeWhile_toDigits, dropWhile_toDigits, isWhole_toDigits,
    digitsValue_toDigits, isTail, hne]

/-- `ofNumeral?` reads what `toString` writes for an integer. -/
theorem ofNumeral?_toString (value : Int) :
    ofNumeral? (toString value).toList = some (integer value) := by
  rw [Int.toString_eq_repr, Int.repr_eq_if]
  split
  · next h =>
    rw [Nat.toList_repr, ofNumeral?_toDigits, Int.toNat_of_nonneg h]
  · next h =>
    rw [String.toList_append, Nat.toList_repr]
    have hdash : "-".toList = ['-'] := rfl
    rw [hdash, List.singleton_append, ofNumeral?_negative (by omega),
      Int.toNat_of_nonneg (by omega), Int.neg_neg]

/-! ## Strings

Inside a string the machine keeps pieces, characters and UTF-16 units, since two units may make up
one character. `escapeChar` writes a unit for control characters only, and those are whole
characters. -/

/-- The ways in which a character is written in a string, each with the piece that is read. -/
inductive Written (c : Char) : List Char → Piece → Prop where
  | plain (hquote : c ≠ '"') (hbackslash : c ≠ '\\') (h : 0x20 ≤ c.toNat) : Written c [c] (.char c)
  | letter (l : Char) (hl : l ≠ 'u') (h : unescape? l = some c) : Written c ['\\', l] (.char c)
  | unit (h : c.toNat < 0x20) :
      Written c ['\\', 'u', '0', '0', hexDigit (c.toNat / 16), hexDigit (c.toNat % 16)]
        (.unit c.toNat)

/-- `escapeChar` writes a character in one of the ways of `Written`. -/
theorem exists_written (c : Char) : ∃ piece, Written c (escapeChar c) piece := by
  unfold escapeChar
  split
  · next h =>
    obtain rfl | rfl := h
    · exact ⟨_, .letter '"' (by decide) rfl⟩
    · exact ⟨_, .letter '\\' (by decide) rfl⟩
  next hmarked =>
  -- five controls have a letter of their own
  obtain ⟨hquote, hbackslash⟩ := not_or.mp hmarked
  split
  · next h => exact ⟨_, .letter 'b' (by decide) (h ▸ rfl)⟩
  split
  · next h => exact ⟨_, .letter 'f' (by decide) (h ▸ rfl)⟩
  split
  · next h => exact ⟨_, .letter 'n' (by decide) (h ▸ rfl)⟩
  split
  · next h => exact ⟨_, .letter 'r' (by decide) (h ▸ rfl)⟩
  split
  · next h => exact ⟨_, .letter 't' (by decide) (h ▸ rfl)⟩
  split
  · next h => exact ⟨_, .unit h⟩
  · next h => exact ⟨_, .plain hquote hbackslash (Nat.le_of_not_lt h)⟩

/-- `hexValue?` reads a `hexDigit` as the number that it was written for. -/
theorem hexValue?_hexDigit {n : Nat} (h : n < 16) : hexValue? (hexDigit n) = some n := by
  have hall : ∀ n : Fin 16, hexValue? (hexDigit n) = some n.val := by decide
  exact hall ⟨n, h⟩

/-- `lexFrom` at a digit of a UTF-16 escape that is not the last one. -/
theorem lexFrom_unit {c : Char} {digit left value : Nat} (h : hexValue? c = some digit)
    (read : List Piece) (text : List Char) :
    lexFrom (.unit read (left + 1) value) (c :: text) =
      lexFrom (.unit read left (value * 16 + digit)) text := by
  refine lexFrom_of_silent ?_ text
  rw [lexStep, h]
  rfl

/-- `lexFrom` at the last digit of a UTF-16 escape: the unit is a `Piece` of the string. -/
theorem lexFrom_unit_last {c : Char} {digit value : Nat} (h : hexValue? c = some digit)
    (read : List Piece) (text : List Char) :
    lexFrom (.unit read 0 value) (c :: text) =
      lexFrom (.string (.unit (value * 16 + digit) :: read)) text := by
  refine lexFrom_of_silent ?_ text
  rw [lexStep, h]
  rfl

theorem lexFrom_escape (read : List Piece) (text : List Char) :
    lexFrom (.string read) ('\\' :: text) = lexFrom (.escape read) text :=
  lexFrom_of_silent rfl text

/-- The step inside a string: what is `Written` for a character is read as one piece. -/
theorem lexFrom_written {c : Char} {chars : List Char} {piece : Piece} (h : Written c chars piece)
    (read : List Piece) (text : List Char) :
    lexFrom (.string read) (chars ++ text) = lexFrom (.string (piece :: read)) text := by
  cases h with
  | plain hquote hbackslash hc =>
    refine lexFrom_of_silent ?_ text
    rw [lexStep, if_neg hquote, if_neg hbackslash, if_neg (Nat.not_lt.mpr hc)]
  | letter l hl hletter =>
    rw [List.cons_append, lexFrom_escape]
    refine lexFrom_of_silent ?_ text
    rw [lexStep, if_neg hl, hletter]
    rfl
  | unit hc =>
    -- a control is less than 32, so the first two of four digits are zeros
    have hhigh := hexValue?_hexDigit (n := c.toNat / 16) (by omega)
    have hlow := hexValue?_hexDigit (n := c.toNat % 16) (by omega)
    have hzero : hexValue? '0' = some 0 := by decide
    have hvalue : ((0 * 16 + 0) * 16 + 0) * 16 + c.toNat / 16 = c.toNat / 16 := by omega
    have hunit : c.toNat / 16 * 16 + c.toNat % 16 = c.toNat := by omega
    rw [List.cons_append, lexFrom_escape, List.cons_append, lexFrom_of_silent rfl, List.cons_append,
      lexFrom_unit hzero, List.cons_append, lexFrom_unit hzero, List.cons_append,
      lexFrom_unit hhigh, List.cons_append, lexFrom_unit_last hlow, hvalue, hunit, List.nil_append]

/-- `pieceChars?` of the piece of a character is that character. -/
theorem pieceChars?_written {c : Char} {chars : List Char} {piece : Piece}
    (h : Written c chars piece) (pieces : List Piece) :
    pieceChars? (piece :: pieces) = (pieceChars? pieces).map (c :: ·) := by
  cases h with
  | plain hquote hbackslash hc => rfl
  | letter l hl hletter => rfl
  | unit hc =>
    -- a unit of a control character is no surrogate
    have hhigh : ¬ isHighSurrogate c.toNat = true := by
      simp only [isHighSurrogate, decide_eq_true_iff]
      omega
    have hlow : ¬ isLowSurrogate c.toNat = true := by
      simp only [isLowSurrogate, decide_eq_true_iff]
      omega
    rw [pieceChars?.eq_def]
    simp only [if_neg hhigh, if_neg hlow, Char.ofNat_toNat]

/-- What `escapeChar` writes for the characters of a text is read as pieces that denote them. By
induction on `chars`, with `lexFrom_written` as the step. -/
theorem exists_pieces (chars : List Char) : ∃ pieces, pieceChars? pieces = some chars ∧
    ∀ read text, lexFrom (.string read) (chars.flatMap escapeChar ++ text) =
      lexFrom (.string (pieces.reverse ++ read)) text := by
  induction chars with
  | nil => exact ⟨[], rfl, fun _ _ => rfl⟩
  | cons c rest ih =>
    -- pieces are read one by one, and what they denote is put together from the end
    obtain ⟨pieces, hpieces, hrest⟩ := ih
    obtain ⟨piece, hwritten⟩ := exists_written c
    refine ⟨piece :: pieces, ?_, fun read text => ?_⟩
    · rw [pieceChars?_written hwritten, hpieces]
      rfl
    · rw [List.flatMap_cons, List.append_assoc, lexFrom_written hwritten, hrest,
        List.reverse_cons, List.append_assoc]
      rfl

/-- A quote ends a string: `ofPieces` makes the token. -/
theorem lexFrom_quote (read : List Piece) (text : List Char) :
    lexFrom (.string read) ('"' :: text) =
      (lexFrom .between text).map (ofPieces read.reverse :: ·) := by
  rw [lexFrom, lexStep, if_pos rfl]
  rfl

/-- A text in quotes is read as the token of that text: its characters are read as pieces by
`exists_pieces`, and the pieces denote them. -/
theorem lexFrom_quoteText (s : String) (text : List Char) :
    lexFrom .between (quoteText s ++ text) =
      (lexFrom .between text).map (string (some s) :: ·) := by
  obtain ⟨pieces, hpieces, hread⟩ := exists_pieces s.toList
  have htoken : ofPieces (pieces.reverse ++ []).reverse = string (some s) := by
    rw [List.append_nil, List.reverse_reverse, ofPieces, hpieces, Option.map_some,
      String.ofList_toList]
  rw [quoteText, List.append_assoc, List.cons_append, lexFrom_of_silent rfl, hread,
    List.singleton_append, lexFrom_quote, htoken]

/-- A string with half of a surrogate pair is no text, and is read as `string none`. -/
theorem lexFrom_unpaired (text : List Char) :
    lexFrom .between ("\"\\ud800\"".toList ++ text) =
      (lexFrom .between text).map (string none :: ·) := by
  have hchars : "\"\\ud800\"".toList = ['"', '\\', 'u', 'd', '8', '0', '0', '"'] := rfl
  have hzero : hexValue? '0' = some 0 := by decide
  have hd : hexValue? 'd' = some 13 := by decide
  have height : hexValue? '8' = some 8 := by decide
  rw [hchars, List.cons_append, lexFrom_of_silent rfl, List.cons_append, lexFrom_escape,
    List.cons_append, lexFrom_of_silent rfl, List.cons_append, lexFrom_unit hd, List.cons_append,
    lexFrom_unit height, List.cons_append, lexFrom_unit hzero, List.cons_append,
    lexFrom_unit_last hzero, List.cons_append, lexFrom_quote]
  rfl

/-! ## One token

One case for each token. Marks and strings end by themselves, the others by what follows:
`isOpenEnded`. -/

/-- Whether a token is a word or a numeral, which go on as long as they can. -/
def isOpenEnded : JsonToken → Bool
  | null | bool _ | integer _ | real _ => true
  | _ => false

/-- A token is read back. For all but numbers that are no integers this says nothing; of those it
asks that the numeral is one. -/
def Readable : JsonToken → Prop
  | real numeral => ofNumeral? numeral.toList = some (real numeral)
  | _ => True

/-- `lexFrom` reads what `chars` writes for a token as that token. -/
theorem lexFrom_chars {token : JsonToken} {text : List Char} (h : token.Readable)
    (htext : token.isOpenEnded = true → Parted text) :
    lexFrom .between (token.chars ++ text) = (lexFrom .between text).map (token :: ·) := by
  cases token with
  | openBrace => exact lexFrom_of_mark rfl text
  | closeBrace => exact lexFrom_of_mark rfl text
  | openBracket => exact lexFrom_of_mark rfl text
  | closeBracket => exact lexFrom_of_mark rfl text
  | comma => exact lexFrom_of_mark rfl text
  | colon => exact lexFrom_of_mark rfl text
  | null => exact lexFrom_word rfl (htext rfl)
  | bool value => cases value <;> exact lexFrom_word rfl (htext rfl)
  | integer value => exact lexFrom_numeral (ofNumeral?_toString value) (htext rfl)
  | real numeral => exact lexFrom_numeral h (htext rfl)
  | string s =>
    cases s with
    | none => exact lexFrom_unpaired text
    | some s => exact lexFrom_quoteText s text

/-! ## All tokens

`Spells` is the grammar of a text, without saying how it is read. What was proved of one token makes
it a specification of the reader. -/

/-- A text says tokens: each is written in its form, with any blanks before, between and after them.
-/
inductive Spells : List Char → List JsonToken → Prop where
  | nil : Spells [] []
  | blank {c : Char} {text : List Char} {tokens : List JsonToken} (hc : isBlank c = true)
      (rest : Spells text tokens) : Spells (c :: text) tokens
  | token {token : JsonToken} {text : List Char} {tokens : List JsonToken} (h : token.Readable)
      (hparted : token.isOpenEnded = true → Parted text) (rest : Spells text tokens) :
      Spells (token.chars ++ text) (token :: tokens)

/-- By induction on how the text `Spells` the tokens. A blank is passed over, and a token is read by
`lexFrom_chars`. -/
theorem lexFrom_of_spells {text : List Char} {tokens : List JsonToken} (h : Spells text tokens) :
    lexFrom .between text = some tokens := by
  induction h with
  | nil => rfl
  | blank hc rest ih => rw [lexFrom_of_blank hc, ih]
  | token h hparted rest ih =>
    rw [lexFrom_chars h hparted, ih]
    rfl

/-- `lex?` reads of a text the tokens that it `Spells`, in any way of spelling them. -/
theorem lex?_of_spells {text : String} {tokens : List JsonToken}
    (h : Spells text.toList tokens) : lex? text = some tokens :=
  lexFrom_of_spells h

end JsonToken

end WasiHost
