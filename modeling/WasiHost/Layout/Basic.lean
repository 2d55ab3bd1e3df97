import WasiHost.Error
import WasiHost.Layout.Primitive

/-!
# Record layouts

A layout is an ordered list of named fields with their offsets. Offsets are found in one pass over
the fields: a packed layout puts each field right after the one before, an aligned one at the next
multiple of the field's own width, and ends at the next multiple of the largest width. -/

namespace WasiHost

/-- How a codec operation on a record fails. -/
inductive LayoutError where
  /-- A declaration spells a type that does not exist. -/
  | unsupportedPrimitive (spelling : String)
  /-- The layout has no field of that name. -/
  | unknownField (name : String)
  /-- A value is not of the declared type of its field. -/
  | typeMismatch (field : String) (expected found : Primitive)
  /-- There are more or fewer values than fields. -/
  | arityMismatch (expected found : Nat)
  /-- There are more or fewer octets than the record is long. -/
  | sizeMismatch (expected : UInt32) (found : Nat)
  /-- The record's place in memory is out of reach. -/
  | memory (error : CallError)
  deriving DecidableEq, Inhabited

namespace LayoutError

/-- The name of the kind of failure. -/
def kind : LayoutError → String
  | unsupportedPrimitive _ => "UnsupportedPrimitive"
  | unknownField _ => "UnknownField"
  | typeMismatch _ _ _ => "TypeMismatch"
  | arityMismatch _ _ => "ArityMismatch"
  | sizeMismatch _ _ => "SizeMismatch"
  | memory _ => "Memory"

/-- The wording of the failure. -/
def message (error : LayoutError) : String :=
  "LayoutError: " ++ match error with
    | unsupportedPrimitive spelling => "unsupported primitive type '" ++ spelling ++ "'."
    | unknownField name => "no field named '" ++ name ++ "'."
    | typeMismatch field expected found =>
      "field '" ++ field ++ "' is declared " ++ expected.name ++ " but got a " ++ found.name ++
        " value."
    | arityMismatch expected found =>
      "expected " ++ toString expected ++ " values, got " ++ toString found ++ "."
    | sizeMismatch expected found =>
      "expected " ++ toString expected ++ " bytes, got " ++ toString found ++ "."
    | memory error => "memory access failed: " ++ error.message ++ "."

end LayoutError

/-- How offsets are given to fields. -/
inductive Packing where
  /-- Each field follows the one before it. -/
  | packed
  /-- Each field stands at a multiple of its own width, as a C compiler lays records out. -/
  | aligned
  deriving DecidableEq, Inhabited

namespace Packing

/-- The name of a packing. -/
def name : Packing → String
  | packed => "Packed"
  | aligned => "Aligned"

/-- The packing with a given name. -/
def ofName? (name : String) : Option Packing :=
  [packed, aligned].find? fun p => p.name = name

end Packing

/-- The declaration of a field: its name and its type. -/
abbrev FieldDecl := String × Primitive

/-- A field with its place in the record. -/
structure Field where
  name : String
  primitive : Primitive
  offset : UInt32
  deriving DecidableEq, Inhabited

/-- An ordered list of fields with their places, and the length of the whole record. -/
structure Layout where
  fields : List Field
  size : UInt32
  deriving DecidableEq, Inhabited

namespace Layout

/-- The least multiple of `alignment` that is not below `offset`. -/
def alignUp (offset alignment : UInt32) : UInt32 :=
  (offset + alignment - 1) / alignment * alignment

/-- Where a field of the given type stands if all before it end at `offset`. -/
def start (packing : Packing) (offset : UInt32) (p : Primitive) : UInt32 :=
  match packing with
  | .packed => offset
  | .aligned => alignUp offset p.size

/-- The alignment of a record that has a field of the given type besides the ones that asked for
`alignment`. -/
def widen (packing : Packing) (alignment : UInt32) (p : Primitive) : UInt32 :=
  match packing with
  | .packed => alignment
  | .aligned => max alignment p.size

/-- Lays out fields from `offset` on, for a record that is to have at least the given alignment. -/
def layOut (packing : Packing) (offset alignment : UInt32) : List FieldDecl → Layout
  | [] => { fields := [], size := alignUp offset alignment }
  | (name, p) :: rest =>
    let here := start packing offset p
    let later := layOut packing (here + p.size) (widen packing alignment p) rest
    { later with fields := { name := name, primitive := p, offset := here } :: later.fields }

/-- The layout of the declared fields. -/
def ofFields (packing : Packing) (fields : List FieldDecl) : Layout :=
  layOut packing 0 1 fields

/-- The declared fields with their types read; the first type that does not exist is the error. -/
def readTypes : List (String × String) → Except LayoutError (List FieldDecl)
  | [] => .ok []
  | (name, spelling) :: rest =>
    match Primitive.ofSpelling? spelling with
    | none => .error (.unsupportedPrimitive spelling)
    | some p =>
      match readTypes rest with
      | .error error => .error error
      | .ok fields => .ok ((name, p) :: fields)

/-- The layout of fields whose types are spelled out. -/
def parse (packing : Packing) (fields : List (String × String)) : Except LayoutError Layout :=
  (readTypes fields).map (ofFields packing)

/-- The first field of a given name. -/
def field (layout : Layout) (name : String) : Except LayoutError Field :=
  match layout.fields.find? fun f => f.name = name with
  | some f => .ok f
  | none => .error (.unknownField name)

/-- The offset of the first field of a given name. -/
def offsetOf? (layout : Layout) (name : String) : Option UInt32 :=
  (layout.field name).toOption.map Field.offset

/-- The octets of a field inside the octets of a record. -/
def Field.cut (f : Field) (bytes : Bytes) : Bytes :=
  (bytes.drop f.offset.toNat).take f.primitive.size.toNat

/-- The value of a type stored in octets, or the complaint about their number. -/
def decodeValue (p : Primitive) (bytes : Bytes) : Except LayoutError Value :=
  match Value.decode? p bytes with
  | some v => .ok v
  | none => .error (.sizeMismatch p.size bytes.length)

/-- The values of fields inside the octets of a record, in order. -/
def decodeFields (bytes : Bytes) : List Field → Except LayoutError (List Value)
  | [] => .ok []
  | f :: rest =>
    match decodeValue f.primitive (Field.cut f bytes) with
    | .error error => .error error
    | .ok v =>
      match decodeFields bytes rest with
      | .error error => .error error
      | .ok vs => .ok (v :: vs)

/-- The values of every field of a record, from its octets. -/
def decodeBytes (layout : Layout) (bytes : Bytes) : Except LayoutError (List Value) :=
  if bytes.length = layout.size.toNat then decodeFields bytes layout.fields
  else .error (.sizeMismatch layout.size bytes.length)

/-- Refuses a value that is not of the declared type of its field. -/
def checkType (f : Field) (v : Value) : Except LayoutError Unit :=
  if f.primitive = v.primitive then .ok ()
  else .error (.typeMismatch f.name f.primitive v.primitive)

/-- Refuses values that do not match the fields one by one; the first mismatch is the error. -/
def checkTypes : List Field → List Value → Except LayoutError Unit
  | f :: fields, v :: values =>
    match checkType f v with
    | .error error => .error error
    | .ok () => checkTypes fields values
  | _, _ => .ok ()

/-- Refuses values that do not match the layout in number or type. -/
def checkValues (layout : Layout) (values : List Value) : Except LayoutError Unit :=
  if values.length = layout.fields.length then checkTypes layout.fields values
  else .error (.arityMismatch layout.fields.length values.length)

end Layout

end WasiHost
