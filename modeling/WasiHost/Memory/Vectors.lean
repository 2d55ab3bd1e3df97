import WasiHost.Memory.Access

/-!
# Lists of buffers

A stream of octets is spread over a list of buffers, or collected from one, in the order of the
list. -/

namespace WasiHost

namespace Access

/-- Fills the buffers one by one until the source is used up, and answers how many octets were
moved, `copied` more than in these buffers. What follows the end of the source is not looked at. -/
def scatterFrom (copied : UInt32) : List IoVec → Bytes → Access UInt32
  | [], _ => pure copied
  | v :: rest, source => do
    if source = [] then pure copied
    else
      let chunk := source.take v.len.toNat
      write v.buf chunk
      match LinearMemory.addWords? copied (UInt32.ofNat chunk.length) with
      | none => throw (.guest .overflow)
      | some copied => scatterFrom copied rest (source.drop v.len.toNat)

/-- Fills the buffers one by one until the source is used up, and answers how many octets were
moved. -/
def scatter (vectors : List IoVec) (source : Bytes) : Access UInt32 :=
  scatterFrom 0 vectors source

end Access

namespace Memory

/-- The octets of all buffers, one after the other. -/
def gather (memory : Memory) : List IoVec → Except CallError Bytes
  | [] => .ok []
  | v :: rest =>
    match memory.slice v.buf v.len with
    | .error error => .error error
    | .ok bytes =>
      match gather memory rest with
      | .error error => .error error
      | .ok more => .ok (bytes ++ more)

/-- The text of all buffers, one after the other, and how many octets it was read from. -/
def gatherText (memory : Memory) (vectors : List IoVec) : Except CallError (String × UInt32) :=
  match memory.gather vectors with
  | .error error => .error error
  | .ok bytes =>
    if bytes.length < UInt32.size then .ok (Utf8.decodeLossy bytes, UInt32.ofNat bytes.length)
    else .error (.guest .overflow)

end Memory

end WasiHost
