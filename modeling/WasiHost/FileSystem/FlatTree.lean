import WasiHost.FileSystem.Basic
import WasiHost.FileSystem.Path

/-!
# A filesystem in memory

A flat list of canonical paths with what is there. The root directory always exists, and putting
something below a missing directory makes the directory. Each path that comes into being takes the
next inode and keeps it when what is there is replaced.
-/

namespace WasiHost

/-- What can be at a path. -/
inductive Node where
  | directory
  | file (content : Bytes)
  deriving DecidableEq, Inhabited

/-- What is at a path, and its inode. -/
structure Entry where
  inode : Nat
  node : Node
  deriving DecidableEq, Inhabited

/-- Paths with what is there; no path occurs twice. -/
structure FlatTree where
  entries : List (String × Entry)
  /-- The inode of the next path that comes into being. -/
  nextInode : Nat
  deriving DecidableEq, Inhabited

namespace FlatTree

/-- The inode of the root directory. -/
def rootInode : Nat := 2

/-- The filesystem with nothing but the root directory. -/
def empty : FlatTree :=
  { entries := [(Path.root, { inode := rootInode, node := .directory })]
    nextInode := rootInode + 1 }

/-- What is at a path, spelled as it is. -/
def find? (tree : FlatTree) (path : String) : Option Entry :=
  (tree.entries.find? fun entry => entry.1 = path).map Prod.snd

/-- Puts something at a path, in place of what was there. -/
def put (tree : FlatTree) (path : String) (node : Node) : FlatTree :=
  let others := tree.entries.filter fun entry => entry.1 ≠ path
  match tree.find? path with
  | some entry => { tree with entries := (path, { entry with node := node }) :: others }
  | none =>
    { entries := (path, { inode := tree.nextInode, node := node }) :: others
      nextInode := tree.nextInode + 1 }

/-- Makes a directory at a path unless something is there. -/
def putDirectory (tree : FlatTree) (path : String) : FlatTree :=
  if (tree.find? path).isSome then tree else tree.put path .directory

/-- The directories on the way from the root to a path, both excluded, from the root on. -/
def ancestors (names : List Path.Name) : List String :=
  (List.range names.length).tail.map fun depth => Path.render (names.take depth)

/-- Makes the missing directories on the way to a path. -/
def makeAncestors (tree : FlatTree) (names : List Path.Name) : FlatTree :=
  (ancestors names).foldl putDirectory tree

/-- Puts a file at a path, in place of what was there, with the missing directories on the way. -/
def insertFile (tree : FlatTree) (path : String) (content : Bytes) : FlatTree :=
  let names := Path.names Path.root path
  (tree.makeAncestors names).put (Path.render names) (.file content)

/-- Makes a directory at a path unless something is there, with the missing directories on the
way. -/
def insertDirectory (tree : FlatTree) (path : String) : FlatTree :=
  let names := Path.names Path.root path
  (tree.makeAncestors names).putDirectory (Path.render names)

/-- The attributes of what is at a path. -/
def attributes (entry : Entry) : FileStat :=
  { device := 0
    inode := UInt64.ofNat entry.inode
    fileType := match entry.node with
      | .directory => .directory
      | .file _ => .regularFile
    numLinks := 1
    fileSize := match entry.node with
      | .directory => 0
      | .file content => UInt64.ofNat content.length
    atime := 0
    mtime := 0
    ctime := 0 }

/-- The attributes of a path. -/
def stat (tree : FlatTree) (path : String) : Except ErrNo FileStat :=
  match tree.find? path with
  | some entry => .ok (attributes entry)
  | none => .error .noEnt

/-- Whether there is something at a path, spelled as it is. -/
def exists? (tree : FlatTree) (path : String) : Bool :=
  (tree.find? path).isSome

/-- The content of the file at a path. -/
def read (tree : FlatTree) (path : String) : Except ErrNo Bytes :=
  match tree.find? path with
  | some { node := .file content, .. } => .ok content
  | some { node := .directory, .. } => .error .isDir
  | none => .error .noEnt

/-- What the tree answers. Whether something is there it answers itself, with `exists?`. -/
def fileSystem (tree : FlatTree) : FileSystem :=
  { stat := tree.stat, read := tree.read }

end FlatTree

end WasiHost
