import Mathlib.Data.List.Chain
import WasiHost.Json.Basic
import WasiHost.Proofs.Json.Token

/-!
# JSON values read back

A value is read back from its tokens wherever a value may stand: the tokens of an array or an object
bring the reader into a frame of its own and out of it again, and leave the frames around it as they
are. Written as text, with blanks between the tokens or without, the tokens are read back as well,
since after a word or a numeral there is always a mark or the end.

* **`Json.inductionOn`** — what holds of arrays and objects if it holds of what they are made of.
* **`Json.readTokens_tokens`** — from the tokens of a value the reader gets that value.
* **`Json.WrittenAs`** — the texts that say a value.
* **`Json.parse?_of_writtenAs`**, **`Json.writtenAs_render`** — such a text denotes the value, and
  the rendered value is one of them. -/

namespace WasiHost

namespace Json

open JsonToken

theorem sizeOf_lt_of_mem_members {members : List (JsonText × Json)} {m : JsonText × Json}
    (h : m ∈ members) : sizeOf m.2 < sizeOf members := by
  have hm := List.sizeOf_lt_of_mem h
  have hvalue : sizeOf m.2 < sizeOf m := by
    obtain ⟨name, value⟩ := m
    simp only [Prod.mk.sizeOf_spec]
    omega
  omega

/-- Induction over values: `motive` holds of an `array` if it holds of all items, and of an `object`
if it holds of the values of all members. -/
@[elab_as_elim]
theorem inductionOn {motive : Json → Prop} (value : Json) (null : motive null)
    (bool : ∀ value, motive (bool value)) (integer : ∀ value, motive (integer value))
    (real : ∀ numeral, motive (real numeral)) (string : ∀ text, motive (string text))
    (array : ∀ items, (∀ item ∈ items, motive item) → motive (array items))
    (object : ∀ members, (∀ m ∈ members, motive m.2) → motive (object members)) :
    motive value :=
  match value with
  | .null => null
  | .bool value => bool value
  | .integer value => integer value
  | .real numeral => real numeral
  | .string text => string text
  | .array items =>
    array items fun item _ => inductionOn item null bool integer real string array object
  | .object members =>
    object members fun m _ => inductionOn m.2 null bool integer real string array object
termination_by sizeOf value
decreasing_by
  · have hitem := List.sizeOf_lt_of_mem (by assumption : item ∈ items)
    simp only [Json.array.sizeOf_spec]
    omega
  · have hm := sizeOf_lt_of_mem_members (by assumption : m ∈ members)
    simp only [Json.object.sizeOf_spec]
    omega

/-! ## Reading tokens

`ReadsBack` is the invariant of the induction over values: it speaks of any frames around the value
and any tokens behind it, so it can be used for an item inside an array as well as for the whole
text. -/

variable {stack : List Frame} {rest : List JsonToken}

/-- `readTokens` moves on by `readStep` where the token is in its place. -/
theorem readTokens_of_step {state state' : ReadState} {token : JsonToken}
    (h : readStep state token = some state') (rest : List JsonToken) :
    readTokens state (token :: rest) = readTokens state' rest := by
  rw [readTokens, h]

/-- `tokens` of a value begin with one that is not `closeBracket`. -/
theorem exists_tokens_eq (value : Json) :
    ∃ token more, value.tokens = token :: more ∧ token ≠ .closeBracket := by
  cases value <;> exact ⟨_, _, rfl, by nofun⟩

/-- In state `firstItem` an item is read as in state `value`: only `closeBracket` is treated
differently. -/
theorem readTokens_firstItem (item : Json) (items : List Json) (stack : List Frame)
    (rest : List JsonToken) :
    readTokens (.firstItem stack) (itemTokens (item :: items) ++ rest) =
      readTokens (.value (.items [] :: stack)) (itemTokens (item :: items) ++ rest) := by
  obtain ⟨token, more, htokens, hne⟩ := exists_tokens_eq item
  have hitems : ∃ more, itemTokens (item :: items) = token :: more := by
    cases items <;> simp [itemTokens, htokens]
  obtain ⟨more, hmore⟩ := hitems
  have hstep : readStep (.firstItem stack) token = readStep (.value (.items [] :: stack)) token :=
    if_neg hne
  simp only [hmore, List.cons_append, readTokens, hstep]

/-- In state `firstMember` a member is read as in state `nextMember`. -/
theorem readTokens_firstMember (m : JsonText × Json) (members : List (JsonText × Json))
    (stack : List Frame) (rest : List JsonToken) :
    readTokens (.firstMember stack) (memberTokens (m :: members) ++ rest) =
      readTokens (.nextMember [] stack) (memberTokens (m :: members) ++ rest) := by
  cases members <;> rfl

/-- A value that is read back wherever it stands. -/
def ReadsBack (value : Json) : Prop :=
  ∀ (stack : List Frame) (rest : List JsonToken),
    readTokens (.value stack) (value.tokens ++ rest) = readTokens (complete value stack) rest

/-- `itemTokens` are read up to the end of the array. By induction on `items`, for every item in
front of them. -/
theorem readTokens_itemTokens {item : Json} {items : List Json} (hitem : item.ReadsBack)
    (hitems : ∀ item ∈ items, item.ReadsBack) (read : List Json) (stack : List Frame)
    (rest : List JsonToken) :
    readTokens (.value (.items read :: stack))
        (itemTokens (item :: items) ++ .closeBracket :: rest) =
      readTokens (complete (array (read.reverse ++ item :: items)) stack) rest := by
  induction items generalizing item read with
  | nil =>
    rw [itemTokens, hitem, complete, readTokens_of_step rfl, List.reverse_cons]
  | cons next items ih =>
    obtain ⟨hnext, hrest⟩ := List.forall_mem_cons.mp hitems
    rw [itemTokens, List.append_assoc, hitem, complete, List.cons_append, readTokens_of_step rfl,
      ih hnext hrest, List.reverse_cons, List.append_assoc]
    · rfl
    · nofun

/-- `memberTokens` are read up to the end of the object, by the same induction. -/
theorem readTokens_memberTokens {m : JsonText × Json} {members : List (JsonText × Json)}
    (hm : m.2.ReadsBack) (hmembers : ∀ m ∈ members, m.2.ReadsBack)
    (read : List (JsonText × Json)) (stack : List Frame) (rest : List JsonToken) :
    readTokens (.nextMember read stack) (memberTokens (m :: members) ++ .closeBrace :: rest) =
      readTokens (complete (object (read.reverse ++ m :: members)) stack) rest := by
  obtain ⟨name, value⟩ := m
  induction members generalizing name value read with
  | nil =>
    rw [memberTokens, List.cons_append, readTokens_of_step rfl, List.cons_append,
      readTokens_of_step rfl, hm, complete, readTokens_of_step rfl, List.reverse_cons]
  | cons next members ih =>
    obtain ⟨hnext, hrest⟩ := List.forall_mem_cons.mp hmembers
    obtain ⟨name', value'⟩ := next
    rw [memberTokens, List.cons_append, List.cons_append, readTokens_of_step rfl,
      List.cons_append, List.cons_append, readTokens_of_step rfl, List.append_assoc, hm, complete,
      List.cons_append, readTokens_of_step rfl, ih hrest _ _ _ hnext, List.reverse_cons,
      List.append_assoc]
    · rfl
    · nofun

/-- Of `value.tokens` the reader gets the value, and goes on with the frames around it. By
`inductionOn`, so every stack is allowed. -/
theorem readTokens_tokens (value : Json) : value.ReadsBack := by
  induction value using inductionOn with
  | null => exact fun _ _ => rfl
  | bool value => exact fun _ _ => rfl
  | integer value => exact fun _ _ => rfl
  | real numeral => exact fun _ _ => rfl
  | string text => exact fun _ _ => rfl
  | array items ih =>
    intro stack rest
    rw [tokens, List.cons_append, List.cons_append, readTokens_of_step rfl, List.append_assoc,
      List.singleton_append]
    cases items with
    | nil => rfl
    | cons item items =>
      obtain ⟨hitem, hitems⟩ := List.forall_mem_cons.mp ih
      exact (readTokens_firstItem item items stack _).trans
        (readTokens_itemTokens hitem hitems [] stack rest)
  | object members ih =>
    intro stack rest
    rw [tokens, List.cons_append, List.cons_append, readTokens_of_step rfl, List.append_assoc,
      List.singleton_append]
    cases members with
    | nil => rfl
    | cons m members =>
      obtain ⟨hm, hmembers⟩ := List.forall_mem_cons.mp ih
      exact (readTokens_firstMember m members stack _).trans
        (readTokens_memberTokens hm hmembers [] stack rest)

/-- Read from nothing, the tokens of a value give the value: the case of `readTokens_tokens` with no
frames and no tokens left. -/
theorem ofTokens?_tokens (value : Json) : ofTokens? value.tokens = some value := by
  have hread := readTokens_tokens value [] []
  rw [List.append_nil] at hread
  rw [ofTokens?, hread]
  rfl

/-! ## Text

Tokens are written without blanks by `Json.render`. They are read back because any two that stand
side by side can touch, and for a value that follows from how arrays and objects put their marks. -/

/-- Two tokens that can be written without a blank between them. -/
def CanTouch (token next : JsonToken) : Prop :=
  token.isOpenEnded = true → next.isOpenEnded = false

/-- A token that is not `isOpenEnded` ends the word or the numeral before it: none of its characters
belongs to either. -/
theorem parted_chars {token : JsonToken} (h : token.isOpenEnded = false) (text : List Char) :
    Parted (token.chars ++ text) := by
  intro c hc
  cases token with
  | openBrace => cases hc; decide
  | closeBrace => cases hc; decide
  | openBracket => cases hc; decide
  | closeBracket => cases hc; decide
  | comma => cases hc; decide
  | colon => cases hc; decide
  | null => cases h
  | bool value => cases h
  | integer value => cases h
  | real numeral => cases h
  | string s => cases s <;> cases hc <;> decide

/-- Tokens that `CanTouch` in a row may be written without blanks. -/
theorem spells_flatMap {tokens : List JsonToken} (htouch : tokens.IsChain CanTouch)
    (hreadable : ∀ token ∈ tokens, token.Readable) :
    Spells (tokens.flatMap JsonToken.chars) tokens := by
  induction htouch with
  | nil => exact .nil
  | singleton token =>
    obtain ⟨htoken, -⟩ := List.forall_mem_cons.mp hreadable
    exact .token htoken (fun _ => parted_nil) .nil
  | cons_cons hnext htouch ih =>
    obtain ⟨htoken, hrest⟩ := List.forall_mem_cons.mp hreadable
    exact .token htoken (fun hopen => parted_chars (hnext hopen) _) (ih hrest)

section

variable {token : JsonToken} {before after : List JsonToken}

/-- A mark, a token that is not `isOpenEnded`, can stand in front of any tokens. -/
theorem isChain_cons_mark (hmark : token.isOpenEnded = false)
    (hafter : after.IsChain CanTouch) : (token :: after).IsChain CanTouch :=
  List.isChain_cons.mpr ⟨fun _ _ hopen => absurd (hmark.symm.trans hopen) (by decide), hafter⟩

theorem isChain_append_mark (hbefore : before.IsChain CanTouch)
    (hmark : token.isOpenEnded = false) (hafter : after.IsChain CanTouch) :
    (before ++ token :: after).IsChain CanTouch := by
  refine List.isChain_append.mpr ⟨hbefore, isChain_cons_mark hmark hafter, ?_⟩
  intro _ _ next hnext _
  cases hnext
  exact hmark

/-- `itemTokens` can touch: there are commas between the items. -/
theorem isChain_itemTokens {items : List Json}
    (h : ∀ item ∈ items, item.tokens.IsChain CanTouch) : (itemTokens items).IsChain CanTouch := by
  induction items with
  | nil => exact .nil
  | cons item items ih =>
    obtain ⟨hitem, hitems⟩ := List.forall_mem_cons.mp h
    -- an array without items ends with the token after the one that begins it
    cases items with
    | nil => exact hitem
    | cons next items => exact isChain_append_mark hitem rfl (ih hitems)

/-- `memberTokens` can touch: the mark behind a name is a colon. -/
theorem isChain_memberTokens {members : List (JsonText × Json)}
    (h : ∀ m ∈ members, m.2.tokens.IsChain CanTouch) :
    (memberTokens members).IsChain CanTouch := by
  induction members with
  | nil => exact .nil
  | cons m members ih =>
    obtain ⟨hm, hmembers⟩ := List.forall_mem_cons.mp h
    -- so does an object without members
    cases members with
    | nil => exact isChain_cons_mark rfl (isChain_cons_mark rfl hm)
    | cons next members =>
      exact isChain_cons_mark rfl
        (isChain_cons_mark rfl (isChain_append_mark hm rfl (ih hmembers)))

/-- The `tokens` of a value can all touch: between two words or numerals there is a mark. -/
theorem isChain_tokens (value : Json) : value.tokens.IsChain CanTouch := by
  induction value using inductionOn with
  | null => exact .singleton _
  | bool value => exact .singleton _
  | integer value => exact .singleton _
  | real numeral => exact .singleton _
  | string text => exact .singleton _
  | array items ih =>
    exact isChain_cons_mark rfl (isChain_append_mark (isChain_itemTokens ih) rfl .nil)
  | object members ih =>
    exact isChain_cons_mark rfl (isChain_append_mark (isChain_memberTokens ih) rfl .nil)

end

/-- A text says a value: its tokens are written in their order, with any blanks around them. -/
def WrittenAs (value : Json) (text : String) : Prop :=
  Spells text.toList value.tokens

/-- `parse?` reads a text that is `WrittenAs` a value as that value. -/
theorem parse?_of_writtenAs {value : Json} {text : String} (h : value.WrittenAs text) :
    parse? text = some value := by
  rw [parse?, lex?_of_spells h]
  exact ofTokens?_tokens value

/-- A value that can be read back: the numerals in it that are no integers are numerals. -/
def Readable (value : Json) : Prop :=
  ∀ token ∈ value.tokens, token.Readable

/-- `itemTokens` are `Readable` if the items are. -/
theorem readable_itemTokens {items : List Json} (h : ∀ item ∈ items, item.Readable) :
    ∀ token ∈ itemTokens items, token.Readable := by
  induction items with
  | nil => nofun
  | cons item items ih =>
    obtain ⟨hitem, hitems⟩ := List.forall_mem_cons.mp h
    cases items with
    | nil => exact hitem
    | cons next items =>
      exact List.forall_mem_append.mpr ⟨hitem, List.forall_mem_cons.mpr ⟨trivial, ih hitems⟩⟩

/-- `memberTokens` are `Readable` if the values are: the names are strings. -/
theorem readable_memberTokens {members : List (JsonText × Json)}
    (h : ∀ m ∈ members, m.2.Readable) : ∀ token ∈ memberTokens members, token.Readable := by
  induction members with
  | nil => nofun
  | cons m members ih =>
    obtain ⟨hm, hmembers⟩ := List.forall_mem_cons.mp h
    cases members with
    | nil => exact List.forall_mem_cons.mpr ⟨trivial, List.forall_mem_cons.mpr ⟨trivial, hm⟩⟩
    | cons next members =>
      exact List.forall_mem_cons.mpr ⟨trivial, List.forall_mem_cons.mpr ⟨trivial,
        List.forall_mem_append.mpr ⟨hm, List.forall_mem_cons.mpr ⟨trivial, ih hmembers⟩⟩⟩⟩

theorem readable_array {items : List Json} (h : ∀ item ∈ items, item.Readable) :
    (array items).Readable :=
  List.forall_mem_cons.mpr ⟨trivial, List.forall_mem_append.mpr
    ⟨readable_itemTokens h, List.forall_mem_singleton.mpr trivial⟩⟩

theorem readable_record {members : List (String × Json)} (h : ∀ m ∈ members, m.2.Readable) :
    (record members).Readable := by
  have hmembers : ∀ m ∈ members.map (fun m => (some m.1, m.2)), m.2.Readable :=
    List.forall_mem_map.mpr h
  exact List.forall_mem_cons.mpr ⟨trivial, List.forall_mem_append.mpr
    ⟨readable_memberTokens hmembers, List.forall_mem_singleton.mpr trivial⟩⟩

/-- `render` writes a `Readable` value as a text that says it. -/
theorem writtenAs_render {value : Json} (h : value.Readable) : value.WrittenAs value.render := by
  rw [WrittenAs, render, String.toList_ofList]
  exact spells_flatMap (isChain_tokens value) h

end Json

end WasiHost
