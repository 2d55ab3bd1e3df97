import WasiHost.Error
import WasiHost.Json.Basic
import WasiHost.Layout.Record

/-!
# JSON forms of the interface's values

Enumerations are written as their names, and values with a payload as an object of one member whose
name says which it is. An enumeration may also be read from such an object with `null` in it, and a
payload of named fields from the list of the fields.
-/

namespace WasiHost

namespace Json

/-- The name and the payload of an object of one member. -/
def asTagged? : Json → Option (String × Json)
  | object [(some name, payload)] => some (name, payload)
  | _ => none

/-- Reads a name that has no payload. -/
def asName? : Json → Option String
  | string text => text
  | object [(some name, null)] => some name
  | _ => none

/-- Reads an enumeration from its names. -/
def asEnum? {α : Type} (ofName? : String → Option α) (json : Json) : Option α :=
  match asName? json with
  | some name => ofName? name
  | none => none

/-- Reads the only field of a payload of named fields; fields of other names are passed over. -/
def asOnlyField? {α : Type} (field : String) (read : Json → Option α) : Json → Option α
  | array [value] => read value
  | object members =>
    match members? members with
    | none => none
    | some members =>
      match member? members field with
      | some (some value) => read value
      | _ => none
  | _ => none

end Json

namespace Primitive

/-- The JSON form of an integer type. -/
def toJson (p : Primitive) : Json := .text p.name

/-- Reads the JSON form of an integer type. -/
def ofJson? (json : Json) : Option Primitive := json.asEnum? ofName?

end Primitive

namespace Packing

/-- The JSON form of a packing. -/
def toJson (p : Packing) : Json := .text p.name

/-- Reads the JSON form of a packing. -/
def ofJson? (json : Json) : Option Packing := json.asEnum? ofName?

end Packing

namespace Value

/-- The JSON form of a value. -/
def toJson (v : Value) : Json := .record [(v.primitive.name, .integer v.toInt)]

/-- Reads the JSON form of a value. -/
def ofJson? (json : Json) : Option Value :=
  match json.asTagged? with
  | some (name, .integer n) =>
    match Primitive.ofName? name with
    | some p => ofInt? p n
    | none => none
  | _ => none

end Value

namespace ErrNo

/-- The JSON form of an error number. -/
def toJson (e : ErrNo) : Json := .text e.name

/-- Reads the JSON form of an error number. -/
def ofJson? (json : Json) : Option ErrNo := json.asEnum? ofName?

end ErrNo

namespace FileType

/-- The JSON form of a file type. -/
def toJson (t : FileType) : Json := .text t.name

/-- Reads the JSON form of a file type. -/
def ofJson? (json : Json) : Option FileType := json.asEnum? ofName?

end FileType

namespace PreopenType

/-- The JSON form of a kind of resource. -/
def toJson (t : PreopenType) : Json := .text t.name

/-- Reads the JSON form of a kind of resource. -/
def ofJson? (json : Json) : Option PreopenType := json.asEnum? ofName?

end PreopenType

namespace CallName

/-- The JSON form of the name of a host call. -/
def toJson (c : CallName) : Json := .text c.constantName

/-- Reads the JSON form of the name of a host call. -/
def ofJson? (json : Json) : Option CallName := json.asEnum? ofConstantName?

end CallName

/-- The JSON form of a word. -/
def wordToJson (n : UInt32) : Json := .integer n.toNat

/-- Reads the JSON form of a word. -/
def wordOfJson? (json : Json) : Option UInt32 :=
  match json with
  | .integer n => if 0 ≤ n ∧ n < UInt32.size then some (UInt32.ofNat n.toNat) else none
  | _ => none

namespace FatalError

/-- The JSON form of a fatal failure. -/
def toJson (error : FatalError) : Json :=
  match error with
  | allocatorFailed text | unknownCall text => .record [(error.kind, .text text)]
  | badArguments call => .record [(error.kind, .record [("function_name", call.toJson)])]
  | _ => .text error.kind

/-- The fatal failures without a payload. -/
def plain : List FatalError :=
  [noMemory, noAllocator, noEntryPoint, engineNotReady, sessionBusy]

/-- Reads the JSON form of a fatal failure. -/
def ofJson? (json : Json) : Option FatalError :=
  match json.asEnum? fun name => plain.find? fun error => error.kind = name with
  | some error => some error
  | none =>
    match json.asTagged? with
    | some ("AllocatorFailed", payload) => payload.asText?.map allocatorFailed
    | some ("UnknownHostFunction", payload) => payload.asText?.map unknownCall
    | some ("BadArgumentsToHostFunction", payload) =>
      (payload.asOnlyField? "function_name" CallName.ofJson?).map badArguments
    | _ => none

end FatalError

end WasiHost
