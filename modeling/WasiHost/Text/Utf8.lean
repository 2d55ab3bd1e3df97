import WasiHost.Abi.LittleEndian

/-!
# Text and its octets

UTF-8 in both directions. Reading is a machine that takes one octet at a time and knows, between
octets, what the character under way still asks for. An octet that cannot continue the character
ends the ill-formed piece before it and is looked at afresh, so each ill-formed piece is as long as
some character could have started with.

* `Utf8.decode?` reads a whole string of octets, or nothing if any piece is ill-formed.
* `Utf8.decodeLossy` puts one replacement character for every ill-formed piece.
-/

namespace WasiHost

/-- The octets of a text. -/
def utf8 (text : String) : Bytes :=
  text.toList.flatMap String.utf8EncodeChar

namespace Utf8

/-- What a character that has begun still asks for. -/
structure Unfinished where
  /-- How many octets are owed after the next one. -/
  owed : Nat
  /-- The least octet that may come next. -/
  low : UInt8
  /-- The greatest octet that may come next. -/
  high : UInt8
  /-- The bits gathered so far. -/
  bits : Nat

/-- What has been read: a character, or `none` for an ill-formed piece. -/
abbrev Piece := Option Char

/-- Takes an octet where a character may begin. -/
def first (b : UInt8) : List Piece × Option Unfinished :=
  if b < 0x80 then ([some (Char.ofNat b.toNat)], none)
  else if b < 0xC2 then ([none], none)
  else if b < 0xE0 then ([], some ⟨0, 0x80, 0xBF, b.toNat - 0xC0⟩)
  else if b = 0xE0 then ([], some ⟨1, 0xA0, 0xBF, 0⟩)
  else if b = 0xED then ([], some ⟨1, 0x80, 0x9F, 0xD⟩)
  else if b < 0xF0 then ([], some ⟨1, 0x80, 0xBF, b.toNat - 0xE0⟩)
  else if b = 0xF0 then ([], some ⟨2, 0x90, 0xBF, 0⟩)
  else if b < 0xF4 then ([], some ⟨2, 0x80, 0xBF, b.toNat - 0xF0⟩)
  else if b = 0xF4 then ([], some ⟨2, 0x80, 0x8F, 4⟩)
  else ([none], none)

/-- Takes an octet that continues a character. -/
def Unfinished.add (u : Unfinished) (b : UInt8) : List Piece × Option Unfinished :=
  let bits := u.bits * 64 + (b.toNat - 0x80)
  match u.owed with
  | 0 => ([some (Char.ofNat bits)], none)
  | owed + 1 => ([], some ⟨owed, 0x80, 0xBF, bits⟩)

/-- Takes one octet: what has been read with it, and what is still under way. -/
def step (state : Option Unfinished) (b : UInt8) : List Piece × Option Unfinished :=
  match state with
  | none => first b
  | some u =>
    if u.low ≤ b ∧ b ≤ u.high then u.add b
    else ((none : Piece) :: (first b).1, (first b).2)

/-- Everything read from a string of octets; a character cut short by the end is ill-formed. -/
def pieces (state : Option Unfinished) : Bytes → List Piece
  | [] => if state.isSome then [none] else []
  | b :: rest => (step state b).1 ++ pieces (step state b).2 rest

/-- The characters of a list of pieces, if none is ill-formed. -/
def chars? : List Piece → Option (List Char)
  | [] => some []
  | none :: _ => none
  | some c :: rest => (chars? rest).map (c :: ·)

/-- The text whose octets are given, if they are well-formed. -/
def decode? (bytes : Bytes) : Option String :=
  (chars? (pieces none bytes)).map String.ofList

/-- The text of a string of octets, with U+FFFD for every ill-formed piece. -/
def decodeLossy (bytes : Bytes) : String :=
  String.ofList ((pieces none bytes).map fun piece => piece.getD '\uFFFD')

end Utf8

end WasiHost
