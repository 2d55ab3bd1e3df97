import WasiHost.Call.Attributes

/-!
# Opening paths

Opening a path keeps a new descriptor for it and tells the guest its number. If the number cannot be
stored the descriptor is closed again, since no one would know of it.
-/

namespace WasiHost

namespace Action

/-- Tells the guest the number of a new descriptor, or closes it again. -/
def reveal (fd : Fd) (address : UInt32) : Action Unit := fun w =>
  match access (Access.writeU32 address fd) w with
  | .ok () w => .ok () w
  | .error error w =>
    match closeDescriptor fd w with
    | .ok () w => .error error w
    | .error _ w => .error error w

/-- The descriptor of what was found at a path. -/
def openedDescriptor (path : String) (stat : FileStat) (flags : UInt16)
    (rightsBase rightsInheriting : Rights) : Descriptor :=
  let status (fileType : FileType) : FdStat :=
    { fileType := fileType, flags := flags, rightsBase := rightsBase,
      rightsInheriting := rightsInheriting }
  if stat.isDirectory then .directory path (status .directory)
  else .file path 0 none (status .regularFile)

/-- Opens a path below a directory. -/
def pathOpen (host : Host) (fd : Fd) (path pathLength : UInt32) (openFlags : OpenFlags)
    (rightsBase rightsInheriting : Rights) (fdFlags address : UInt32) : Action Unit := do
  let _ ← halfWord openFlags
  let flags ← halfWord fdFlags
  let path ← resolve fd path pathLength
  let stat ← lift (host.fileSystem.stat path)
  if OpenFlags.asksDirectory openFlags ∧ ¬ stat.isDirectory then refuse .notDir
  else do
    let fd ← openDescriptor (openedDescriptor path stat flags rightsBase rightsInheriting)
    reveal fd address

end Action

end WasiHost
