import WasiHost.Call.Startup
import WasiHost.FileSystem.Path

/-!
# Attributes of descriptors and paths

What a guest is told about a descriptor or a path. The paths of the standard streams are devices,
whether or not the filesystem knows them; anything else is a directory if the filesystem says so,
and otherwise a regular file. -/

namespace WasiHost

/-- The paths that name the standard streams. -/
def streamDevices : List String :=
  ["/dev/stdin", "/dev/stdout", "/dev/stderr", "/dev/tty"]

/-- Whether a path names a standard stream. -/
def isStreamDevice (path : String) : Bool :=
  path ∈ streamDevices

/-- The kind of file that a guest is told of. -/
def shownFileType (path : String) (fileType : FileType) : FileType :=
  if isStreamDevice path then .characterDevice
  else if fileType = .directory then .directory
  else .regularFile

namespace FileStat

/-- The attributes with all times at zero. -/
def withoutTimes (s : FileStat) : FileStat :=
  { s with atime := 0, mtime := 0, ctime := 0 }

end FileStat

namespace Session

/-- The attributes as a guest is told of them. -/
def shownFileStat (session : Session) (path : String) (stat : FileStat) : FileStat :=
  let stat := { stat with fileType := shownFileType path stat.fileType }
  if session.options.enableClock then stat else stat.withoutTimes

/-- The attributes that a guest is told of an absolute path. -/
def fileStat (session : Session) (fs : FileSystem) (path : String) : Except ErrNo FileStat :=
  match fs.stat path with
  | .ok stat => .ok (session.shownFileStat path stat)
  | .error errno =>
    if isStreamDevice path then .ok (session.shownFileStat path FileStat.standardStream)
    else .error errno

/-- The absolute path that a path names below the directory under a number. -/
def resolve (session : Session) (fd : Fd) (path : String) : Except ErrNo String :=
  match session.table.get fd with
  | .ok (.preopened base) => .ok (Path.normalize base path)
  | .ok (.directory base _) => .ok (Path.normalize base path)
  | .ok _ => .error .notDir
  | .error errno => .error errno

end Session

namespace Action

/-- The attributes that the guest is told of an absolute path. -/
def fileStat (host : Host) (path : String) : Action FileStat := do
  let outcome ← look fun session => session.fileStat host.fileSystem path
  lift outcome

/-- The absolute path that a path in guest memory names below a directory. -/
def resolve (fd : Fd) (path pathLength : UInt32) : Action String := do
  let path ← access (Access.readText path pathLength)
  let outcome ← look fun session => session.resolve fd path
  lift outcome

/-- The name of the preopened directory under a number. -/
def preopenedName (fd : Fd) : Action String := do
  match ← descriptor fd with
  | .preopened name => pure name
  | _ => refuse .badF

/-- Stores the status of a descriptor. The kind of an opened file is asked of the filesystem. -/
def fdFdstatGet (host : Host) (fd : Fd) (address : UInt32) : Action Unit := do
  let descriptor ← descriptor fd
  let status ← match descriptor with
    | .file path _ _ status | .directory path status => do
      let stat ← fileStat host path
      pure { status with fileType := stat.fileType }
    | _ => pure descriptor.status
  access (Access.write address status.pack)

/-- Changes the flags of a descriptor that was opened; any other number is left alone. -/
def fdFdstatSetFlags (fd : Fd) (flags : UInt32) : Action Unit := do
  let flags ← halfWord flags
  let table ← look Session.table
  match table.get fd with
  | .ok descriptor => setDescriptor fd (descriptor.withFlags flags)
  | .error _ => pure ()

/-- Stores what a preopened descriptor is. -/
def fdPrestatGet (fd : Fd) (address : UInt32) : Action Unit := do
  let name ← preopenedName fd
  let nameLen ← word (utf8 name).length
  access (Access.write address (Prestat.pack { tag := .dir, nameLen := nameLen }))

/-- Stores the name of a preopened directory. -/
def fdPrestatDirName (fd : Fd) (address size : UInt32) : Action Unit := do
  let name ← preopenedName fd
  if size.toNat < (utf8 name).length then refuse .nameTooLong
  else access (Access.write address (utf8 name))

/-- Stores the attributes of a path. -/
def pathFilestatGet (host : Host) (fd : Fd) (path pathLength address : UInt32) : Action Unit := do
  let path ← resolve fd path pathLength
  let stat ← fileStat host path
  access (Access.write address stat.pack)

end Action

end WasiHost
