import WasiHost.Abi.CallName
import WasiHost.Abi.Rights
import WasiHost.Descriptor.Table

/-!
# Host calls

A host call with its arguments. `Call.ofWords?` reads one from its name and raw integers, as an
engine without typed imports has them: the number of integers must be right, and an argument of 32
bits must not be wider. -/

namespace WasiHost

/-- A host call with its arguments. An argument called `address` is where the guest wants the
result; `buffers` and `count` name a list of packed buffers. -/
inductive Call where
  /-- The command line of the program. -/
  | argsGet (pointers strings : UInt32)
  /-- How many strings the command line has, and how long they are together. -/
  | argsSizesGet (count size : UInt32)
  /-- The environment of the program. -/
  | environGet (pointers strings : UInt32)
  /-- How many strings the environment has, and how long they are together. -/
  | environSizesGet (count size : UInt32)
  /-- The resolution of a clock, as the answer of the call itself. -/
  | clockResolution (clock : UInt32)
  /-- The resolution of a clock. -/
  | clockResGet (clock address : UInt32)
  /-- The time of a clock, rounded down to a multiple of the precision. -/
  | clockTimeGet (clock : UInt32) (precision : UInt64) (address : UInt32)
  /-- Closes a descriptor. -/
  | fdClose (fd : Fd)
  /-- The status of a descriptor. -/
  | fdFdstatGet (fd : Fd) (address : UInt32)
  /-- Changes the flags of a descriptor. -/
  | fdFdstatSetFlags (fd : Fd) (flags : UInt32)
  /-- What a preopened descriptor is. -/
  | fdPrestatGet (fd : Fd) (address : UInt32)
  /-- The name of a preopened directory, into a buffer of the given size. -/
  | fdPrestatDirName (fd : Fd) (address size : UInt32)
  /-- Reads from a descriptor into buffers. -/
  | fdRead (fd : Fd) (buffers count address : UInt32)
  /-- Asks for the offset of a descriptor. -/
  | fdSeek (fd : Fd) (offset : Int64) (whence address : UInt32)
  /-- Writes buffers to a descriptor. -/
  | fdWrite (fd : Fd) (buffers count address : UInt32)
  /-- The attributes of a path below a directory. -/
  | pathFilestatGet (fd : Fd) (flags path pathLength address : UInt32)
  /-- Opens a path below a directory. -/
  | pathOpen (fd : Fd) (dirFlags path pathLength : UInt32) (openFlags : OpenFlags)
      (rightsBase rightsInheriting : Rights) (fdFlags address : UInt32)
  /-- Gives an exit code. -/
  | procExit (code : UInt32)
  /-- Random octets. -/
  | randomGet (address length : UInt32)
  deriving DecidableEq, Inhabited

namespace Call

/-- The name of a host call. -/
def name : Call → CallName
  | argsGet .. => .argsGet
  | argsSizesGet .. => .argsSizesGet
  | environGet .. => .environGet
  | environSizesGet .. => .environSizesGet
  | clockResolution .. | clockResGet .. => .clockResGet
  | clockTimeGet .. => .clockTimeGet
  | fdClose .. => .fdClose
  | fdFdstatGet .. => .fdFdstatGet
  | fdFdstatSetFlags .. => .fdFdstatSetFlags
  | fdPrestatGet .. => .fdPrestatGet
  | fdPrestatDirName .. => .fdPrestatDirName
  | fdRead .. => .fdRead
  | fdSeek .. => .fdSeek
  | fdWrite .. => .fdWrite
  | pathFilestatGet .. => .pathFilestatGet
  | pathOpen .. => .pathOpen
  | procExit .. => .procExit
  | randomGet .. => .randomGet

/-- The 32-bit word of the same value as a wider one, if there is one. -/
def narrow? (n : UInt64) : Option UInt32 :=
  if n.toNat < UInt32.size then some n.toUInt32 else none

/-- Reads a host call from its name and raw integers. -/
def ofWords? : CallName → List UInt64 → Option Call
  | .argsGet, [a, b] => return argsGet (← narrow? a) (← narrow? b)
  | .argsSizesGet, [a, b] => return argsSizesGet (← narrow? a) (← narrow? b)
  | .environGet, [a, b] => return environGet (← narrow? a) (← narrow? b)
  | .environSizesGet, [a, b] => return environSizesGet (← narrow? a) (← narrow? b)
  | .clockResGet, [a] => return clockResolution (← narrow? a)
  | .clockResGet, [a, b] => return clockResGet (← narrow? a) (← narrow? b)
  | .clockTimeGet, [a, b, c] => return clockTimeGet (← narrow? a) b (← narrow? c)
  | .fdClose, [a] => return fdClose (← narrow? a)
  | .fdFdstatGet, [a, b] => return fdFdstatGet (← narrow? a) (← narrow? b)
  | .fdFdstatSetFlags, [a, b] => return fdFdstatSetFlags (← narrow? a) (← narrow? b)
  | .fdPrestatGet, [a, b] => return fdPrestatGet (← narrow? a) (← narrow? b)
  | .fdPrestatDirName, [a, b, c] =>
    return fdPrestatDirName (← narrow? a) (← narrow? b) (← narrow? c)
  | .fdRead, [a, b, c, d] => return fdRead (← narrow? a) (← narrow? b) (← narrow? c) (← narrow? d)
  | .fdSeek, [a, b, c, d] => return fdSeek (← narrow? a) b.toInt64 (← narrow? c) (← narrow? d)
  | .fdWrite, [a, b, c, d] =>
    return fdWrite (← narrow? a) (← narrow? b) (← narrow? c) (← narrow? d)
  | .pathFilestatGet, [a, b, c, d, e] =>
    return pathFilestatGet (← narrow? a) (← narrow? b) (← narrow? c) (← narrow? d) (← narrow? e)
  | .pathOpen, [a, b, c, d, e, f, g, h, i] =>
    return pathOpen (← narrow? a) (← narrow? b) (← narrow? c) (← narrow? d) (← narrow? e) f g
      (← narrow? h) (← narrow? i)
  | .procExit, [a] => return procExit (← narrow? a)
  | .randomGet, [a, b] => return randomGet (← narrow? a) (← narrow? b)
  | _, _ => none

end Call

end WasiHost
