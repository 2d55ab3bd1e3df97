/-!
# Guest paths

A path is resolved against a directory by reading its components in order on a stack: an empty
component and `.` do nothing, `..` takes the last name off, and never climbs above the root, and any
other component is put on. What is left, written with a separator before each name, is the canonical
form of the path.

The rules are those of Unix: `/` is the only separator, and `isAbsolute` calls a path absolute if it
starts with one, so that the directory it is resolved against plays no part.
-/

namespace WasiHost

namespace Path

/-- The name of the root directory. -/
def root : String := "/"

/-- A component of a path. -/
abbrev Name := List Char

/-- The components of a path, empty ones included: what stands between the separators. -/
def split : List Char → List Name
  | [] => [[]]
  | c :: rest =>
    if c = '/' then [] :: split rest
    else match split rest with
      | [] => [[c]]
      | name :: names => (c :: name) :: names

/-- Names with a separator between any two. -/
def join : List Name → List Char
  | [] => []
  | [name] => name
  | name :: names => name ++ '/' :: join names

/-- Reads one component on a stack of names, the last name first. -/
def enter (stack : List Name) (part : Name) : List Name :=
  if part = [] ∨ part = ['.'] then stack
  else if part = ['.', '.'] then stack.tail
  else part :: stack

/-- Whether a path starts at the root. -/
def isAbsolute (path : String) : Bool :=
  path.toList.head? = some '/'

/-- The components to be read to reach `path` from the directory `base`. -/
def parts (base path : String) : List Name :=
  if isAbsolute path then split path.toList
  else split base.toList ++ split path.toList

/-- The names that lead from the root to `path`, taken relative to `base` unless it is absolute. -/
def names (base path : String) : List Name :=
  ((parts base path).foldl enter []).reverse

/-- The canonical path that consists of the given names. -/
def render (names : List Name) : String :=
  String.ofList ('/' :: join names)

/-- The canonical form of `path`, taken relative to `base` unless it is absolute. -/
def normalize (base path : String) : String :=
  render (names base path)

end Path

end WasiHost
