import WasiHost.FileSystem.Basic
import WasiHost.FileSystem.Path
import WasiHost.Text.Utf8

/-!
# A filesystem over a directory of the host

A guest path becomes a host path by joining its canonical form, without the separator in front, to
the served directory, so that `..` cannot leave it. `hostPath` does that; what the host then finds
is described by `HostTree`: directories and files, and the rules by which the host walks a path of
its own.

Host paths are those of a Unix system. A separator is `/` and nothing else, a path that starts with
one is absolute, and `HostPath.join` follows the rule of such a system for joining paths: a path
that is absolute takes the place of the base, and between the base and any other path there is one
separator. Systems with drives or with a second separator have other rules, which are not described
here. -/

namespace WasiHost

namespace HostPath

/-- What has to stand between a directory and a path below it: a separator, unless the directory is
empty or ends with one. -/
def separator (base : String) : String :=
  if base = "" ∨ base.toList.getLast? = some '/' then "" else "/"

/-- A path taken from the directory `base`, by the rule of Unix: an absolute path takes the place of
the base, and any other one is written behind it, after a separator if the base does not end with
one. -/
def join (base path : String) : String :=
  if Path.isAbsolute path then path else base ++ separator base ++ path

/-- A path without the separators it starts with. -/
def relative (path : String) : String :=
  String.ofList (path.toList.dropWhile fun c => c = '/')

end HostPath

/-- The host path of a guest path, below the served directory. -/
def hostPath (served path : String) : String :=
  HostPath.join served (HostPath.relative (Path.normalize Path.root path))

/-- A file or a directory of the host with everything below it. -/
inductive HostTree where
  | file (content : Bytes)
  | directory (entries : List (String × HostTree))

namespace HostTree

/-- The longest name a directory can hold, in octets. -/
def nameLimit : Nat := 255

/-- The longest path the host takes, in octets. -/
def pathLimit : Nat := 4095

/-- The directory with nothing in it. -/
def empty : HostTree := directory []

/-- What stands under a name in a list of entries. -/
def named? (entries : List (String × HostTree)) (name : String) : Option HostTree :=
  (entries.find? fun entry => entry.1 = name).map Prod.snd

/-- What stands under a name in something that ought to be a directory. -/
def child (tree : HostTree) (name : String) : Except HostError HostTree :=
  match tree with
  | file _ => .error .other
  | directory entries =>
    if (utf8 name).length ≤ nameLimit then
      match named? entries name with
      | some tree => .ok tree
      | none => .error .notFound
    else .error .other

/-- Puts something at the end of a chain of names, making the directories on the way. What was there
before is replaced, a directory by a directory excepted; a file on the way is replaced too. -/
def put (node : HostTree) : List Path.Name → HostTree → HostTree
  | [], tree =>
    match node, tree with
    | directory _, directory entries => directory entries
    | _, _ => node
  | name :: rest, tree =>
    let entries := match tree with
      | directory entries => entries
      | file _ => []
    let name := String.ofList name
    let below := (named? entries name).getD empty
    directory ((name, put node rest below) :: entries.filter fun entry => entry.1 ≠ name)

/-- Walks the components of a host path. `above` holds the directories on the way, the nearest
first; beyond them there are directories of which nothing is known. An empty component and `.` stay,
but only in a directory. -/
def walk (above : List HostTree) (tree : HostTree) : List Path.Name → Except HostError HostTree
  | [] => .ok tree
  | part :: rest =>
    match tree with
    | file _ => .error .other
    | directory _ =>
      if part = [] ∨ part = ['.'] then walk above tree rest
      else if part = ['.', '.'] then
        match above with
        | [] => walk [] empty rest
        | parent :: above => walk above parent rest
      else
        match tree.child (String.ofList part) with
        | .ok below => walk (tree :: above) below rest
        | .error error => .error error

/-- What stands at a host path, relative to the directory the tree describes. Outside of it nothing
is known but that there are directories above it. -/
def resolve (tree : HostTree) (path : String) : Except HostError HostTree :=
  if '\x00' ∈ path.toList then .error .invalidInput
  else if path = "" then .error .notFound
  else if (utf8 path).length > pathLimit then .error .other
  else if Path.isAbsolute path then walk [] empty (Path.split path.toList)
  else walk [] tree (Path.split path.toList)

/-- The content of the file at a host path. -/
def read (tree : HostTree) (path : String) : Except HostError Bytes :=
  match tree.resolve path with
  | .ok (file content) => .ok content
  | .ok (directory _) => .error .other
  | .error error => .error error

/-- The attributes of a file or directory, as far as the tree knows them. -/
def attributes : HostTree → FileStat
  | file content =>
    { device := 0, inode := 0, fileType := .regularFile, numLinks := 1,
      fileSize := UInt64.ofNat content.length, atime := 0, mtime := 0, ctime := 0 }
  | directory _ =>
    { device := 0, inode := 0, fileType := .directory, numLinks := 0, fileSize := 0, atime := 0,
      mtime := 0, ctime := 0 }

/-- What a guest is answered whose root is the directory `served`. -/
def fileSystem (tree : HostTree) (served : String) : FileSystem where
  stat path :=
    match tree.resolve (hostPath served path) with
    | .ok node => .ok node.attributes
    | .error error => .error error.toErrNo
  read path :=
    match tree.resolve (hostPath served path) with
    | .ok (file content) => .ok content
    | .ok (directory _) => .error .isDir
    | .error error => .error error.toErrNo

end HostTree

end WasiHost
