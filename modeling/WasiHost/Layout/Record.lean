import WasiHost.Abi.ErrNo
import WasiHost.Abi.FileType
import WasiHost.Abi.Rights
import WasiHost.Layout.Basic

/-!
# The records of the interface

The four records that pass through guest memory, each with its packed form: a fixed number of
octets, integers little-endian, padding zero. Reading checks the length and the stored kinds and
skips the padding.

The three records that a trace can show also have a name and a list of fields, from which a `Layout`
is computed.
-/

namespace WasiHost

/-- The natural number that `width` octets hold from `offset` on. -/
def wordAt (bytes : Bytes) (offset width : Nat) : Nat :=
  LittleEndian.decode ((bytes.drop offset).take width)

/-- An octet string of a given length of zeros. -/
def padding (length : Nat) : Bytes :=
  List.replicate length 0

/-- A buffer of the guest: where it is and how long. -/
structure IoVec where
  buf : UInt32
  len : UInt32
  deriving DecidableEq, Inhabited

namespace IoVec

/-- The length of the packed form. -/
def size : UInt32 := 8

/-- The packed form. -/
def pack (v : IoVec) : Bytes :=
  LittleEndian.encode 4 v.buf.toNat ++ LittleEndian.encode 4 v.len.toNat

/-- Reads the packed form. -/
def unpack (bytes : Bytes) : Except ErrNo IoVec :=
  if bytes.length = size.toNat then
    .ok { buf := UInt32.ofNat (wordAt bytes 0 4), len := UInt32.ofNat (wordAt bytes 4 4) }
  else .error .inval

end IoVec

/-- What a preopened resource is, and how long its name is. -/
structure Prestat where
  tag : PreopenType
  nameLen : UInt32
  deriving DecidableEq, Inhabited

namespace Prestat

/-- The length of the packed form. -/
def size : UInt32 := 8

/-- The packed form. -/
def pack (s : Prestat) : Bytes :=
  LittleEndian.encode 1 s.tag.number.toNat ++ padding 3 ++ LittleEndian.encode 4 s.nameLen.toNat

/-- Reads the packed form. -/
def unpack (bytes : Bytes) : Except ErrNo Prestat :=
  if bytes.length = size.toNat then
    match PreopenType.ofNumber? (wordAt bytes 0 1) with
    | some tag => .ok { tag := tag, nameLen := UInt32.ofNat (wordAt bytes 4 4) }
    | none => .error .inval
  else .error .inval

end Prestat

/-- The status of a descriptor. -/
structure FdStat where
  fileType : FileType
  flags : UInt16
  rightsBase : Rights
  rightsInheriting : Rights
  deriving DecidableEq, Inhabited

namespace FdStat

/-- The length of the packed form. -/
def size : UInt32 := 24

/-- The packed form. -/
def pack (s : FdStat) : Bytes :=
  LittleEndian.encode 1 s.fileType.number.toNat ++ padding 1 ++
    LittleEndian.encode 2 s.flags.toNat ++ padding 4 ++
    LittleEndian.encode 8 s.rightsBase.toNat ++ LittleEndian.encode 8 s.rightsInheriting.toNat

/-- Reads the packed form. -/
def unpack (bytes : Bytes) : Except ErrNo FdStat :=
  if bytes.length = size.toNat then
    match FileType.ofNumber? (wordAt bytes 0 1) with
    | some fileType =>
      .ok
        { fileType := fileType
          flags := UInt16.ofNat (wordAt bytes 2 2)
          rightsBase := UInt64.ofNat (wordAt bytes 8 8)
          rightsInheriting := UInt64.ofNat (wordAt bytes 16 8) }
    | none => .error .inval
  else .error .inval

end FdStat

/-- The attributes of a file. Times are nanoseconds since 1970. -/
structure FileStat where
  device : UInt64
  inode : UInt64
  fileType : FileType
  numLinks : UInt64
  fileSize : UInt64
  atime : UInt64
  mtime : UInt64
  ctime : UInt64
  deriving DecidableEq, Inhabited

namespace FileStat

/-- The length of the packed form. -/
def size : UInt32 := 64

/-- The attributes of a standard stream that no file stands behind. -/
def standardStream : FileStat :=
  { device := 0, inode := 0, fileType := .characterDevice, numLinks := 1, fileSize := 0, atime := 0,
    mtime := 0, ctime := 0 }

/-- Whether the attributes are those of a directory. -/
def isDirectory (s : FileStat) : Bool :=
  s.fileType = .directory

/-- The packed form. The kind of the file takes a whole word. -/
def pack (s : FileStat) : Bytes :=
  [s.device.toNat, s.inode.toNat, s.fileType.number.toNat, s.numLinks.toNat, s.fileSize.toNat,
    s.atime.toNat, s.mtime.toNat, s.ctime.toNat].flatMap (LittleEndian.encode 8)

/-- Reads the packed form. -/
def unpack (bytes : Bytes) : Except ErrNo FileStat :=
  if bytes.length = size.toNat then
    match FileType.ofNumber? (wordAt bytes 16 8) with
    | some fileType =>
      .ok
        { device := UInt64.ofNat (wordAt bytes 0 8)
          inode := UInt64.ofNat (wordAt bytes 8 8)
          fileType := fileType
          numLinks := UInt64.ofNat (wordAt bytes 24 8)
          fileSize := UInt64.ofNat (wordAt bytes 32 8)
          atime := UInt64.ofNat (wordAt bytes 40 8)
          mtime := UInt64.ofNat (wordAt bytes 48 8)
          ctime := UInt64.ofNat (wordAt bytes 56 8) }
    | none => .error .inval
  else .error .inval

end FileStat

/-- The records that have a list of fields. -/
inductive RecordKind where
  | prestat
  | fdstat
  | filestat
  deriving DecidableEq, Inhabited

namespace RecordKind

/-- Every record with a list of fields. -/
def all : List RecordKind := [prestat, fdstat, filestat]

/-- The name of a record. -/
def name : RecordKind → String
  | prestat => "prestat"
  | fdstat => "fdstat"
  | filestat => "filestat"

/-- The record of a given name. -/
def ofName? (name : String) : Option RecordKind :=
  all.find? fun kind => kind.name = name

/-- The length of the packed form of a record. -/
def size : RecordKind → UInt32
  | prestat => Prestat.size
  | fdstat => FdStat.size
  | filestat => FileStat.size

/-- The fields of a record, in order. -/
def fields : RecordKind → List FieldDecl
  | prestat => [("type", .u8), ("name_len", .u32)]
  | fdstat =>
    [("filetype", .u8), ("flags", .u16), ("rights_base", .u64), ("rights_inheriting", .u64)]
  | filestat =>
    [("dev", .u64), ("ino", .u64), ("filetype", .u64), ("nlink", .u64), ("size", .u64),
      ("atim", .u64), ("mtim", .u64), ("ctim", .u64)]

/-- The layout of a record, each field at a multiple of its width. -/
def layout (kind : RecordKind) : Layout :=
  Layout.ofFields .aligned kind.fields

/-- The layout computed from the fields is as long as the packed form. -/
theorem size_layout (kind : RecordKind) : kind.layout.size = kind.size := by
  cases kind <;> rfl

end RecordKind

end WasiHost
