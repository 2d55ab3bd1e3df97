/-!
# Error numbers

The error numbers a guest can be given, with the numeric codes that the interface fixes. A code that
is not listed here is never produced and never recognised.
-/

namespace WasiHost

/-- An error number of the interface. `success` is a number like the others, so that a status word
can be read back as an `ErrNo`. -/
inductive ErrNo where
  | success
  | access
  | badF
  | busy
  | exist
  | fault
  | ilSeq
  | inval
  | io
  | isDir
  | nameTooLong
  | noEnt
  | noMem
  | noSys
  | notDir
  | overflow
  | notCapable
  deriving DecidableEq, Inhabited

namespace ErrNo

/-- Every error number, in the order of the codes. -/
def all : List ErrNo :=
  [success, access, badF, busy, exist, fault, ilSeq, inval, io, isDir, nameTooLong, noEnt, noMem,
    noSys, notDir, overflow, notCapable]

/-- The code of an error number. -/
def code : ErrNo → UInt32
  | success => 0
  | access => 2
  | badF => 8
  | busy => 10
  | exist => 20
  | fault => 21
  | ilSeq => 25
  | inval => 28
  | io => 29
  | isDir => 31
  | nameTooLong => 37
  | noEnt => 44
  | noMem => 48
  | noSys => 52
  | notDir => 54
  | overflow => 61
  | notCapable => 76

/-- The error number with a given code. -/
def ofCode? (n : Nat) : Option ErrNo :=
  all.find? fun e => e.code.toNat = n

/-- The name under which an error number is reported. -/
def name : ErrNo → String
  | success => "Success"
  | access => "Access"
  | badF => "BadF"
  | busy => "Busy"
  | exist => "Exist"
  | fault => "Fault"
  | ilSeq => "IlSeq"
  | inval => "Inval"
  | io => "Io"
  | isDir => "IsDir"
  | nameTooLong => "NameTooLong"
  | noEnt => "NoEnt"
  | noMem => "NoMem"
  | noSys => "NoSys"
  | notDir => "NotDir"
  | overflow => "Overflow"
  | notCapable => "NotCapable"

/-- The error number with a given name. -/
def ofName? (name : String) : Option ErrNo :=
  all.find? fun e => e.name = name

theorem mem_all (e : ErrNo) : e ∈ all := by
  cases e <;> decide

/-- Codes are distinct, so a code is read back as the error number it came from. -/
theorem ofCode?_code (e : ErrNo) : ofCode? e.code.toNat = some e := by
  cases e <;> rfl

end ErrNo

end WasiHost
