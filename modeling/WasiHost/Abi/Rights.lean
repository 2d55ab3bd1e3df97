/-!
# Rights and open flags

Bit sets of the interface. Rights are reported with a descriptor's status and never enforced; of the
open flags only `OpenFlags.directory` is looked at.
-/

namespace WasiHost

/-- A set of rights, one bit each. -/
abbrev Rights := UInt64

namespace Rights

/-- Write data back without the metadata. -/
def fdDatasync : Rights := (1 : UInt64) <<< 0
/-- Read from a descriptor. -/
def fdRead : Rights := (1 : UInt64) <<< 1
/-- Move a descriptor's offset. -/
def fdSeek : Rights := (1 : UInt64) <<< 2
/-- Change a descriptor's flags. -/
def fdFdstatSetFlags : Rights := (1 : UInt64) <<< 3
/-- Write data and metadata back. -/
def fdSync : Rights := (1 : UInt64) <<< 4
/-- Ask for a descriptor's offset. -/
def fdTell : Rights := (1 : UInt64) <<< 5
/-- Write to a descriptor. -/
def fdWrite : Rights := (1 : UInt64) <<< 6
/-- Open a path below a directory. -/
def pathOpen : Rights := (1 : UInt64) <<< 13
/-- List a directory. -/
def fdReaddir : Rights := (1 : UInt64) <<< 14
/-- Ask for the attributes of a path. -/
def pathFilestatGet : Rights := (1 : UInt64) <<< 18
/-- Ask for the attributes of a descriptor. -/
def fdFilestatGet : Rights := (1 : UInt64) <<< 21
/-- Wait for a descriptor to become ready. -/
def pollFdReadwrite : Rights := (1 : UInt64) <<< 27

/-- Every right the interface defines. -/
def all : Rights := ((1 : UInt64) <<< 30) - 1

/-- The rights of the standard streams. Moving and asking for the offset are absent, so that a guest
takes them for terminals. -/
def stdio : Rights :=
  fdRead ||| fdWrite ||| fdFdstatSetFlags ||| fdFilestatGet ||| pollFdReadwrite

end Rights

/-- A set of flags that say how a path is to be opened, one bit each. -/
abbrev OpenFlags := UInt32

namespace OpenFlags

/-- Create the file if it is missing. -/
def creat : OpenFlags := (1 : UInt32) <<< 0
/-- Fail unless the path is a directory. -/
def directory : OpenFlags := (1 : UInt32) <<< 1
/-- Fail if the file exists. -/
def excl : OpenFlags := (1 : UInt32) <<< 2
/-- Empty the file first. -/
def trunc : OpenFlags := (1 : UInt32) <<< 3

/-- Whether a set of flags asks for a directory. -/
def asksDirectory (flags : OpenFlags) : Bool :=
  flags &&& directory != 0

end OpenFlags

end WasiHost
