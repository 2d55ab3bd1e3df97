import WasiHost.Memory.Access

/-!
# Records in guest memory

A layout reads and writes the record at an address of guest memory, or a single field of it.
Addresses of fields are taken modulo the range of a word. -/

namespace WasiHost

namespace Layout

/-- The address of a field of the record at an address. -/
def Field.address (f : Field) (record : UInt32) : UInt32 :=
  record + f.offset

/-- Puts values into their fields one by one. -/
def encodeFields (record : UInt32) : List (Field × Value) → EStateM LayoutError Memory Unit
  | [] => pure ()
  | (f, v) :: rest => do
    EStateM.adaptExcept LayoutError.memory (Access.write (Field.address f record) v.encode)
    encodeFields record rest

/-- Puts a record at an address, one value for each field; every value is checked before the first
write, and padding is left as it is. -/
def encode (layout : Layout) (record : UInt32) (values : List Value) :
    EStateM LayoutError Memory Unit := do
  match layout.checkValues values with
  | .error error => throw error
  | .ok () => encodeFields record (layout.fields.zip values)

/-- The values of the fields of the record at an address. -/
def decode (layout : Layout) (memory : Memory) (record : UInt32) :
    Except LayoutError (List Value) :=
  match memory.slice record layout.size with
  | .error error => .error (.memory error)
  | .ok bytes => layout.decodeBytes bytes

/-- The value of one field of the record at an address. -/
def readField (layout : Layout) (memory : Memory) (record : UInt32) (name : String) :
    Except LayoutError Value :=
  match layout.field name with
  | .error error => .error error
  | .ok f =>
    match memory.slice (Field.address f record) f.primitive.size with
    | .error error => .error (.memory error)
    | .ok bytes => decodeValue f.primitive bytes

/-- Puts a value into one field of the record at an address. -/
def writeField (layout : Layout) (record : UInt32) (name : String) (v : Value) :
    EStateM LayoutError Memory Unit := do
  match layout.field name with
  | .error error => throw error
  | .ok f =>
    match checkType f v with
    | .error error => throw error
    | .ok () =>
      EStateM.adaptExcept LayoutError.memory (Access.write (Field.address f record) v.encode)

end Layout

end WasiHost
