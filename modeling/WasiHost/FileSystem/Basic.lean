import WasiHost.Layout.Record

/-!
# What a filesystem answers

A host call asks a filesystem two questions about a path: its attributes, and the content of the
file there. Nothing ties the two answers together, and both may change from one call to the next. -/

namespace WasiHost

/-- The answers of a filesystem at one moment. -/
structure FileSystem where
  /-- The attributes of a path. -/
  stat : String → Except ErrNo FileStat
  /-- The whole content of the file at a path. -/
  read : String → Except ErrNo Bytes

namespace FileSystem

/-- Whether there is something at a path, as far as its attributes tell. A filesystem that knows
otherwise may have an answer of its own, as `FlatTree` does. -/
def exists? (fs : FileSystem) (path : String) : Bool :=
  (fs.stat path).toBool

end FileSystem

/-- Why the host could not do something to a file. -/
inductive HostError where
  | notFound
  | permissionDenied
  | alreadyExists
  | invalidInput
  | unexpectedEof
  /-- Any other reason. -/
  | other
  deriving DecidableEq, Inhabited

namespace HostError

/-- The error number a guest is given. -/
def toErrNo : HostError → ErrNo
  | notFound => .noEnt
  | permissionDenied => .access
  | alreadyExists => .exist
  | invalidInput => .inval
  | unexpectedEof => .fault
  | other => .io

/-- The wording of the reason. -/
def message : HostError → String
  | notFound => "not found"
  | permissionDenied => "permission denied"
  | alreadyExists => "already exists"
  | invalidInput => "invalid input"
  | unexpectedEof => "unexpected end of file"
  | other => "input or output error"

end HostError

end WasiHost
