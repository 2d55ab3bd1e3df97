import WasiHost.FileSystem.Path
import WasiHost.Layout.Record

/-!
# Descriptors

What an open descriptor refers to, and the status it has by itself.
-/

namespace WasiHost

/-- What a descriptor refers to. -/
inductive Descriptor where
  | stdin
  | stdout
  | stderr
  /-- The directory that is open from the start. -/
  | preopened (name : String)
  /-- An opened file. Its content is not loaded before the first read and served from here after
  it. -/
  | file (path : String) (offset : UInt64) (content : Option Bytes) (status : FdStat)
  /-- An opened directory. -/
  | directory (path : String) (status : FdStat)
  deriving DecidableEq, Inhabited

namespace Descriptor

/-- The path behind a descriptor that has one. -/
def path? : Descriptor → Option String
  | stdin | stdout | stderr => none
  | preopened name => some name
  | file path _ _ _ => some path
  | directory path _ => some path

/-- The status of a descriptor, without asking the filesystem. -/
def status : Descriptor → FdStat
  | stdin | stdout | stderr =>
    { fileType := .characterDevice, flags := 0, rightsBase := Rights.stdio,
      rightsInheriting := Rights.stdio }
  | preopened _ =>
    { fileType := .directory, flags := 0, rightsBase := Rights.all,
      rightsInheriting := Rights.all }
  | file _ _ _ status => status
  | directory _ status => status

/-- The descriptor with other flags, if it is one that was opened. -/
def withFlags (flags : UInt16) : Descriptor → Descriptor
  | file path offset content status => file path offset content { status with flags := flags }
  | directory path status => directory path { status with flags := flags }
  | other => other

/-- The offset of a file, and zero for anything else. -/
def offset : Descriptor → UInt64
  | file _ offset _ _ => offset
  | _ => 0

end Descriptor

end WasiHost
