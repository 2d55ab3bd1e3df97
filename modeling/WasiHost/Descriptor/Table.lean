import WasiHost.Descriptor.Arena
import WasiHost.Descriptor.Basic
import WasiHost.Log

/-!
# The descriptor table

The descriptors of a session under their numbers. The first four are reserved: they are open from
the start and closing them does nothing. -/

namespace WasiHost

/-- The number of a descriptor. -/
abbrev Fd := UInt32

namespace Fd

/-- Standard input. -/
def stdin : Fd := 0
/-- Standard output. -/
def stdout : Fd := 1
/-- Standard error. -/
def stderr : Fd := 2
/-- The root directory. -/
def root : Fd := 3
/-- The first number that is not reserved. -/
def firstFree : Fd := 4

/-- Whether a number is reserved for the whole session. -/
def isReserved (fd : Fd) : Bool :=
  fd < firstFree

/-- The descriptor number that an index stands for. -/
def ofIndex (index : Nat) : Except ErrNo Fd :=
  if index < UInt32.size then .ok (UInt32.ofNat index) else .error .overflow

end Fd

/-- Descriptors under their numbers. -/
structure DescriptorTable where
  arena : Arena Descriptor
  deriving DecidableEq, Inhabited

namespace DescriptorTable

/-- The table of a session that begins. -/
def initial : DescriptorTable :=
  { arena := (((Arena.empty.insert .stdin).insert .stdout).insert .stderr).insert
      (.preopened Path.root) }

/-- How many descriptors are open, the reserved ones included. -/
def size (table : DescriptorTable) : Nat :=
  table.arena.count

/-- The descriptor under a number. -/
def get (table : DescriptorTable) (fd : Fd) : Except ErrNo Descriptor :=
  match table.arena.get? fd.toNat with
  | some descriptor => .ok descriptor
  | none => .error .badF

/-- Puts a descriptor in place of the one under a number; if none is open there nothing changes. -/
def set (table : DescriptorTable) (fd : Fd) (descriptor : Descriptor) : DescriptorTable :=
  { arena := table.arena.set fd.toNat descriptor }

/-- Keeps a descriptor under a free number. -/
def insert (table : DescriptorTable) (descriptor : Descriptor) :
    Except ErrNo (Fd × DescriptorTable) :=
  match Fd.ofIndex table.arena.next with
  | .error errno => .error errno
  | .ok fd => .ok (fd, { arena := table.arena.insert descriptor })

/-- Opens the file at a path, with nothing read yet. -/
def openFile (table : DescriptorTable) (path : String) (status : FdStat) :
    Except ErrNo (Fd × DescriptorTable) :=
  table.insert (.file path 0 none status)

/-- Opens the directory at a path. -/
def openDirectory (table : DescriptorTable) (path : String) (status : FdStat) :
    Except ErrNo (Fd × DescriptorTable) :=
  table.insert (.directory path status)

/-- The log line that a number was handed out. -/
def allocated (fd : Fd) : LogRecord :=
  { level := .debug, source := .table, text := "descriptor " ++ toString fd ++ " allocated" }

/-- The log line that a number was given back. -/
def released (fd : Fd) : LogRecord :=
  { level := .debug, source := .table, text := "descriptor " ++ toString fd ++ " released" }

/-- Closes a descriptor, with what the log is told. A reserved one stays open. -/
def close (table : DescriptorTable) (fd : Fd) : Except ErrNo (DescriptorTable × List LogRecord) :=
  match table.get fd with
  | .error errno => .error errno
  | .ok _ =>
    if Fd.isReserved fd then .ok (table, [])
    else .ok ({ arena := table.arena.erase fd.toNat }, [released fd])

/-- The open descriptors with numbers less than `limit`, in order. -/
def toListBelow (table : DescriptorTable) (limit : Nat) : List (Nat × Descriptor) :=
  (List.range (min limit table.arena.slots.size)).filterMap fun key =>
    (table.arena.get? key).map fun d => (key, d)

end DescriptorTable

end WasiHost
