import WasiHost.Call.Startup

/-!
# Reading and writing

Standard input is a queue that reads take octets off. A file is loaded as a whole when it is first
read and then served from the descriptor. Standard output and error each get one text for a write;
octets written to a file are counted and dropped.

A read or write looks at the cell for its count before it moves anything, so that it never takes
octets it cannot report.
-/

namespace WasiHost

namespace Action

/-- The content of an opened file, loaded if it was not yet. -/
def load (host : Host) (fd : Fd) (path : String) (offset : UInt64) (content : Option Bytes)
    (status : FdStat) : Action Bytes := do
  match content with
  | some bytes => pure bytes
  | none => do
    let bytes ← lift (host.fileSystem.read path)
    setDescriptor fd (.file path offset (some bytes) status)
    pure bytes

/-- Moves octets from a descriptor into buffers, and answers how many. -/
def readInto (host : Host) (fd : Fd) (vectors : List IoVec) : Action UInt32 := do
  match ← descriptor fd with
  | .stdin => do
    let queued ← look Session.stdin
    let moved ← access (Access.scatter vectors queued)
    change fun session => { session with stdin := session.stdin.drop moved.toNat }
    pure moved
  | .file path offset content status => do
    let bytes ← load host fd path offset content status
    let moved ← access (Access.scatter vectors (bytes.drop offset.toNat))
    setDescriptor fd (.file path (offset + moved.toUInt64) (some bytes) status)
    pure moved
  | .preopened _ | .directory _ _ => refuse .isDir
  | .stdout | .stderr => refuse .badF

/-- Reads from a descriptor into buffers. -/
def fdRead (host : Host) (fd : Fd) (buffers count address : UInt32) : Action Unit := do
  let vectors ← access (Access.readIoVecs buffers count)
  access (Access.check address 4)
  let moved ← readInto host fd vectors
  access (Access.writeU32 address moved)

/-- The log line that octets written to a file are dropped. -/
def dropped (path : String) (length : Nat) : LogRecord :=
  { level := .warn
    source := .calls
    text := "fd_write: " ++ toString length ++ " bytes to " ++ path ++ " are not persisted" }

/-- Moves octets from buffers to a descriptor, and answers how many. -/
def writeFrom (fd : Fd) (vectors : List IoVec) : Action UInt32 := do
  match ← descriptor fd with
  | .stdout => do
    let (text, moved) ← access (Access.reading fun memory => memory.gatherText vectors)
    emit [.stdout text]
    pure moved
  | .stderr => do
    let (text, moved) ← access (Access.reading fun memory => memory.gatherText vectors)
    emit [.stderr text]
    pure moved
  | .file path _ _ _ => do
    let bytes ← access (Access.reading fun memory => memory.gather vectors)
    emit [.log (dropped path bytes.length)]
    word bytes.length
  | .preopened _ | .directory _ _ => refuse .isDir
  | .stdin => refuse .badF

/-- Writes buffers to a descriptor. -/
def fdWrite (fd : Fd) (buffers count address : UInt32) : Action Unit := do
  let vectors ← access (Access.readIoVecs buffers count)
  access (Access.check address 4)
  let moved ← writeFrom fd vectors
  access (Access.writeU32 address moved)

/-- Stores the offset of a descriptor, which no seek moves. -/
def fdSeek (fd : Fd) (address : UInt32) : Action Unit := do
  let table ← look Session.table
  let offset := match table.get fd with
    | .ok descriptor => descriptor.offset
    | .error _ => 0
  access (Access.writeU64 address offset)

end Action

end WasiHost
