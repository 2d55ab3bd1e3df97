/-!
# Tokens of JSON text

The lexical level of JSON: marks, words, numerals and strings, with white space between them. Text
is read one character at a time by a machine that knows, between characters, which token is under
way; a mark or a blank that ends a word or a numeral is looked at afresh.

Strings may escape UTF-16 units. Two units of a surrogate pair are one character; a string with a
unit that has no partner is a string of JSON but no text, and is kept as `none`. -/

namespace WasiHost

/-- The text of a string, or `none` for a string that escapes an unpaired surrogate. -/
abbrev JsonText := Option String

/-- A token of JSON text. -/
inductive JsonToken where
  | openBrace
  | closeBrace
  | openBracket
  | closeBracket
  | comma
  | colon
  | null
  | bool (value : Bool)
  /-- A numeral that denotes an integer by its form. -/
  | integer (value : Int)
  /-- A numeral with a fraction or an exponent, or a negative zero. -/
  | real (numeral : String)
  | string (text : JsonText)
  deriving DecidableEq, Inhabited

namespace JsonToken

/-! ## Words and numerals -/

/-- Whether a character is blank. -/
def isBlank (c : Char) : Bool :=
  c = ' ' ∨ c = '\n' ∨ c = '\t' ∨ c = '\r'

/-- Whether a character is a decimal digit. -/
def isDigit (c : Char) : Bool :=
  '0' ≤ c ∧ c ≤ '9'

/-- Whether a character can stand in a word. -/
def isLetter (c : Char) : Bool :=
  'a' ≤ c ∧ c ≤ 'z'

/-- Whether a numeral can begin with a character. -/
def beginsNumeral (c : Char) : Bool :=
  isDigit c ∨ c = '-'

/-- Whether a character can stand in a numeral. -/
def isNumeral (c : Char) : Bool :=
  isDigit c ∨ c = '-' ∨ c = '+' ∨ c = '.' ∨ c = 'e' ∨ c = 'E'

/-- The token that is a mark of one character. -/
def ofMark? (c : Char) : Option JsonToken :=
  if c = '\x7b' then some openBrace
  else if c = '\x7d' then some closeBrace
  else if c = '[' then some openBracket
  else if c = ']' then some closeBracket
  else if c = ',' then some comma
  else if c = ':' then some colon
  else none

/-- The token that a word is. -/
def ofWord? (word : List Char) : Option JsonToken :=
  if word = ['n', 'u', 'l', 'l'] then some null
  else if word = ['t', 'r', 'u', 'e'] then some (bool true)
  else if word = ['f', 'a', 'l', 's', 'e'] then some (bool false)
  else none

/-- The number that decimal digits denote. -/
def digitsValue (digits : List Char) : Nat :=
  digits.foldl (fun n c => 10 * n + (c.toNat - '0'.toNat)) 0

/-- Whether a string of characters is an exponent: a mark, perhaps a sign, and digits. -/
def isExponent : List Char → Bool
  | c :: rest =>
    let digits := match rest with
      | '+' :: digits | '-' :: digits => digits
      | digits => digits
    (c = 'e' ∨ c = 'E') ∧ digits ≠ [] ∧ digits.all isDigit
  | [] => false

/-- Whether a string of characters is what may follow the whole digits of a numeral: perhaps a
fraction, then perhaps an exponent. -/
def isTail : List Char → Bool
  | [] => true
  | '.' :: rest =>
    let exponent := rest.dropWhile isDigit
    (rest.takeWhile isDigit ≠ []) ∧ (exponent = [] ∨ isExponent exponent)
  | rest => isExponent rest

/-- Whether digits can be the whole digits of a numeral: there are some, and none of several is a
leading zero. -/
def isWhole (digits : List Char) : Bool :=
  digits ≠ [] ∧ (digits.length = 1 ∨ digits.head? ≠ some '0')

/-- The token that a numeral is. -/
def ofNumeral? (numeral : List Char) : Option JsonToken :=
  let (negative, rest) := match numeral with
    | '-' :: rest => (true, rest)
    | rest => (false, rest)
  let digits := rest.takeWhile isDigit
  let tail := rest.dropWhile isDigit
  if isWhole digits ∧ isTail tail then
    let value := digitsValue digits
    if tail = [] ∧ ¬ (negative ∧ value = 0) then
      some (integer (if negative then -(value : Int) else value))
    else some (real (String.ofList numeral))
  else none

/-! ## Strings -/

/-- A piece of a string: a character, or a UTF-16 unit given by an escape. -/
inductive Piece where
  | char (c : Char)
  | unit (value : Nat)
  deriving DecidableEq, Inhabited

/-- Whether a UTF-16 unit is the first of a pair. -/
def isHighSurrogate (unit : Nat) : Bool :=
  0xD800 ≤ unit ∧ unit < 0xDC00

/-- Whether a UTF-16 unit is the second of a pair. -/
def isLowSurrogate (unit : Nat) : Bool :=
  0xDC00 ≤ unit ∧ unit < 0xE000

/-- The characters that pieces denote, if every surrogate has its partner. -/
def pieceChars? : List Piece → Option (List Char)
  | [] => some []
  | .char c :: rest => (pieceChars? rest).map (c :: ·)
  | .unit high :: rest =>
    if isHighSurrogate high then
      match rest with
      | .unit low :: rest =>
        if isLowSurrogate low then
          (pieceChars? rest).map
            (Char.ofNat (0x10000 + (high - 0xD800) * 0x400 + (low - 0xDC00)) :: ·)
        else none
      | _ => none
    else if isLowSurrogate high then none
    else (pieceChars? rest).map (Char.ofNat high :: ·)

/-- The token of a string with the given pieces. -/
def ofPieces (pieces : List Piece) : JsonToken :=
  string ((pieceChars? pieces).map String.ofList)

/-- The character that an escape of one letter denotes. -/
def unescape? (c : Char) : Option Char :=
  if c = '"' ∨ c = '\\' ∨ c = '/' then some c
  else if c = 'b' then some '\x08'
  else if c = 'f' then some '\x0c'
  else if c = 'n' then some '\n'
  else if c = 'r' then some '\r'
  else if c = 't' then some '\t'
  else none

/-- The value of a hexadecimal digit. -/
def hexValue? (c : Char) : Option Nat :=
  if isDigit c then some (c.toNat - '0'.toNat)
  else if 'a' ≤ c ∧ c ≤ 'f' then some (c.toNat - 'a'.toNat + 10)
  else if 'A' ≤ c ∧ c ≤ 'F' then some (c.toNat - 'A'.toNat + 10)
  else none

/-! ## The machine -/

/-- What is under way between two characters. What has been read of a token stands last first. -/
inductive LexState where
  | between
  | word (read : List Char)
  | numeral (read : List Char)
  | string (read : List Piece)
  /-- After a backslash in a string. -/
  | escape (read : List Piece)
  /-- In a UTF-16 escape that still has `left + 1` digits to come. -/
  | unit (read : List Piece) (left value : Nat)
  deriving DecidableEq, Inhabited

/-- Takes a character where a token may begin. -/
def lexFirst (c : Char) : Option (List JsonToken × LexState) :=
  if isBlank c then some ([], .between)
  else if c = '"' then some ([], .string [])
  else if beginsNumeral c then some ([], .numeral [c])
  else if isLetter c then some ([], .word [c])
  else (ofMark? c).map fun token => ([token], .between)

/-- Ends a token, if it is one, and takes the character after it. -/
def lexAfter (token : Option JsonToken) (c : Char) : Option (List JsonToken × LexState) :=
  match token, lexFirst c with
  | some token, some (tokens, state) => some (token :: tokens, state)
  | _, _ => none

/-- Takes a character: the tokens that end with it, and what is under way after it. -/
def lexStep (state : LexState) (c : Char) : Option (List JsonToken × LexState) :=
  match state with
  | .between => lexFirst c
  | .word read =>
    if isLetter c then some ([], .word (c :: read)) else lexAfter (ofWord? read.reverse) c
  | .numeral read =>
    if isNumeral c then some ([], .numeral (c :: read)) else lexAfter (ofNumeral? read.reverse) c
  | .string read =>
    if c = '"' then some ([ofPieces read.reverse], .between)
    else if c = '\\' then some ([], .escape read)
    else if c.toNat < 0x20 then none
    else some ([], .string (.char c :: read))
  | .escape read =>
    if c = 'u' then some ([], .unit read 3 0)
    else (unescape? c).map fun c => ([], .string (.char c :: read))
  | .unit read left value =>
    (hexValue? c).map fun digit =>
      let value := value * 16 + digit
      match left with
      | 0 => ([], .string (.unit value :: read))
      | left + 1 => ([], .unit read left value)

/-- The tokens that end with the text. -/
def lexEnd : LexState → Option (List JsonToken)
  | .between => some []
  | .word read => (ofWord? read.reverse).map ([·])
  | .numeral read => (ofNumeral? read.reverse).map ([·])
  | .string _ | .escape _ | .unit _ _ _ => none

/-- The tokens of a text that is read from a given state on. -/
def lexFrom (state : LexState) : List Char → Option (List JsonToken)
  | [] => lexEnd state
  | c :: rest =>
    match lexStep state c with
    | none => none
    | some (tokens, state) => (lexFrom state rest).map (tokens ++ ·)

/-- The tokens of a text. -/
def lex? (text : String) : Option (List JsonToken) :=
  lexFrom .between text.toList

/-! ## Writing -/

/-- The lower-case hexadecimal digit of a number below sixteen. -/
def hexDigit (n : Nat) : Char :=
  if n < 10 then Char.ofNat ('0'.toNat + n) else Char.ofNat ('a'.toNat + (n - 10))

/-- How a character is written in a string. Quotes, backslashes and control characters are escaped,
by a letter where there is one. -/
def escapeChar (c : Char) : List Char :=
  if c = '"' ∨ c = '\\' then ['\\', c]
  else if c = '\x08' then ['\\', 'b']
  else if c = '\x0c' then ['\\', 'f']
  else if c = '\n' then ['\\', 'n']
  else if c = '\r' then ['\\', 'r']
  else if c = '\t' then ['\\', 't']
  else if c.toNat < 0x20 then
    ['\\', 'u', '0', '0', hexDigit (c.toNat / 16), hexDigit (c.toNat % 16)]
  else [c]

/-- A text between quotes. -/
def quoteText (text : String) : List Char :=
  '"' :: text.toList.flatMap escapeChar ++ ['"']

/-- How a token is written. A string that is no text is written as an unpaired surrogate. -/
def chars : JsonToken → List Char
  | openBrace => ['\x7b']
  | closeBrace => ['\x7d']
  | openBracket => ['[']
  | closeBracket => [']']
  | comma => [',']
  | colon => [':']
  | null => ['n', 'u', 'l', 'l']
  | bool true => ['t', 'r', 'u', 'e']
  | bool false => ['f', 'a', 'l', 's', 'e']
  | integer value => (toString value).toList
  | real numeral => numeral.toList
  | string (some text) => quoteText text
  | string none => "\"\\ud800\"".toList

end JsonToken

end WasiHost
