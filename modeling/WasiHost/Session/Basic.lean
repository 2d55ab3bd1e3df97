import WasiHost.Descriptor.Table
import WasiHost.FileSystem.Basic
import WasiHost.Memory.Basic
import WasiHost.Options

/-!
# Sessions

The state that the host calls of one guest share, and what the host has to offer at the moment of a
call: the answers of the filesystem, the time and random octets.
-/

namespace WasiHost

/-- The state of one guest's session. -/
structure Session where
  table : DescriptorTable
  /-- The octets queued on standard input and not read yet. -/
  stdin : Bytes
  /-- The exit code, once the guest has given one. -/
  exitCode : Option UInt32
  options : Options
  deriving DecidableEq, Inhabited

namespace Session

/-- The session that begins, with default options. -/
def initial : Session :=
  { table := DescriptorTable.initial, stdin := [], exitCode := none, options := {} }

/-- Replaces the options and queues their standard input. -/
def withOptions (session : Session) (options : Options) : Session :=
  { session with stdin := session.stdin ++ options.stdin, options := options }

/-- Queues octets on standard input. -/
def pushStdin (session : Session) (bytes : Bytes) : Session :=
  { session with stdin := session.stdin ++ bytes }

/-- Whether the guest has given an exit code. -/
def hasExited (session : Session) : Bool :=
  session.exitCode.isSome

end Session

/-- What the host offers at the moment of a call. -/
structure Host where
  fileSystem : FileSystem
  /-- The time in nanoseconds since 1970, if there is one. -/
  clock : Except ErrNo UInt64
  /-- Random octets by index. -/
  random : Nat → UInt8

end WasiHost
