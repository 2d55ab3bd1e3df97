/-!
# Kinds of files, preopened resources and clocks

Three small enumerations of the interface with their fixed numbers.
-/

namespace WasiHost

/-- What kind of thing a path or a descriptor refers to. -/
inductive FileType where
  | unknown
  | blockDevice
  | characterDevice
  | directory
  | regularFile
  | socketDgram
  | socketStream
  | symbolicLink
  deriving DecidableEq, Inhabited

namespace FileType

/-- Every file type, in the order of the numbers. -/
def all : List FileType :=
  [unknown, blockDevice, characterDevice, directory, regularFile, socketDgram, socketStream,
    symbolicLink]

/-- The number of a file type. -/
def number : FileType → UInt8
  | unknown => 0
  | blockDevice => 1
  | characterDevice => 2
  | directory => 3
  | regularFile => 4
  | socketDgram => 5
  | socketStream => 6
  | symbolicLink => 7

/-- The file type with a given number. -/
def ofNumber? (n : Nat) : Option FileType :=
  all.find? fun t => t.number.toNat = n

/-- The name of a file type. -/
def name : FileType → String
  | unknown => "Unknown"
  | blockDevice => "BlockDevice"
  | characterDevice => "CharacterDevice"
  | directory => "Directory"
  | regularFile => "RegularFile"
  | socketDgram => "SocketDgram"
  | socketStream => "SocketStream"
  | symbolicLink => "SymbolicLink"

/-- The file type with a given name. -/
def ofName? (name : String) : Option FileType :=
  all.find? fun t => t.name = name

theorem ofNumber?_number (t : FileType) : ofNumber? t.number.toNat = some t := by
  cases t <;> rfl

/-- Only the numbers that some file type has are recognised. -/
theorem ofNumber?_eq_some_iff {n : Nat} {t : FileType} :
    ofNumber? n = some t ↔ n = t.number.toNat := by
  constructor
  · intro h
    have := List.find?_some h
    simpa using (of_decide_eq_true this).symm
  · rintro rfl
    exact ofNumber?_number t

end FileType

/-- What kind of resource is opened before the guest starts. Only directories are. -/
inductive PreopenType where
  | dir
  deriving DecidableEq, Inhabited

namespace PreopenType

/-- The number of a kind of resource. -/
def number : PreopenType → UInt8
  | dir => 0

/-- The kind of resource with a given number. -/
def ofNumber? (n : Nat) : Option PreopenType :=
  if n = 0 then some dir else none

/-- The name of a kind of resource. -/
def name : PreopenType → String
  | dir => "Dir"

/-- The kind of resource with a given name. -/
def ofName? (name : String) : Option PreopenType :=
  if name = dir.name then some dir else none

end PreopenType

/-- The clocks that the interface numbers. Only `realTime` is served. -/
inductive ClockId where
  | realTime
  | monotonic
  | processCpuTime
  | threadCpuTime
  deriving DecidableEq, Inhabited

namespace ClockId

/-- Every clock, in the order of the numbers. -/
def all : List ClockId :=
  [realTime, monotonic, processCpuTime, threadCpuTime]

/-- The number of a clock. -/
def number : ClockId → UInt32
  | realTime => 0
  | monotonic => 1
  | processCpuTime => 2
  | threadCpuTime => 3

/-- The clock with a given number. -/
def ofNumber? (n : Nat) : Option ClockId :=
  all.find? fun c => c.number.toNat = n

/-- The name of a clock. -/
def name : ClockId → String
  | realTime => "RealTime"
  | monotonic => "Monotonic"
  | processCpuTime => "ProcessCpuTime"
  | threadCpuTime => "ThreadCpuTime"

end ClockId

end WasiHost
