import WasiHost.Call.Basic
import WasiHost.Wasm.Machine

/-!
# Linking programs to host calls

The imports of a program are tied to the host calls by name. A host call has to be imported with its
own signature. Other functions may be imported, always with one signature for one name, but stop the
program when it calls them; nothing else can be imported.

`Request.ofOperands?` reads a host call from the operands of an import. Two of the calls take
arguments that the interface makes narrower than the words they come in; a word that is too wide is
answered at once and the session does not see the call.
-/

namespace WasiHost

open Wasm

namespace CallName

/-- The signature a host call is imported with. -/
def signature : CallName → Signature
  | argsGet | argsSizesGet | environGet | environSizesGet | clockResGet | fdFdstatGet
  | fdFdstatSetFlags | fdPrestatGet | randomGet => status [.i32, .i32]
  | clockTimeGet => status [.i32, .i64, .i32]
  | fdClose => status [.i32]
  | fdPrestatDirName => status [.i32, .i32, .i32]
  | fdRead | fdWrite => status [.i32, .i32, .i32, .i32]
  | fdSeek => status [.i32, .i64, .i32, .i32]
  | pathFilestatGet => status [.i32, .i32, .i32, .i32, .i32]
  | pathOpen => status [.i32, .i32, .i32, .i32, .i32, .i64, .i64, .i32, .i32]
  | procExit => { params := [.i32], results := [] }
where
  /-- The signature of a call that answers a status. -/
  status (params : List ValueType) : Signature :=
    { params, results := [.i32] }

end CallName

/-- The names that a program and its host have agreed on. -/
structure Names where
  /-- The module that host calls are imported from. -/
  module : String
  /-- The function that is the program. -/
  entryPoint : String
  /-- The memory that host calls work on. -/
  memory : String
  /-- The function that hands out memory. -/
  allocator : String

/-- The names in use. -/
def names : Names :=
  { module := "wasi_snapshot_preview1", entryPoint := "_start", memory := "memory",
    allocator := "malloc" }

/-- What an imported function is tied to. -/
inductive Target where
  | call (name : CallName)
  /-- A function that no one provides. -/
  | unprovided (moduleName name : String)
  deriving DecidableEq, Inhabited

namespace Target

/-- What an import is tied to, if it can be tied to anything. -/
def ofImport? (i : Import) : Option Target :=
  let known := if i.moduleName = names.module then CallName.ofName? i.name else none
  match i.kind, known with
  | .function signature, some wanted =>
    if signature = wanted.signature then some (.call wanted) else none
  | .function _, none => some (.unprovided i.moduleName i.name)
  | _, _ => none

/-- What the imports of a program are tied to one by one, if all of them can be tied. -/
def ofEach? : List Import → Option (List Target)
  | [] => some []
  | i :: rest =>
    match ofImport? i, ofEach? rest with
    | some target, some targets => some (target :: targets)
    | _, _ => none

/-- What the imports of a program are tied to, if all of them can be tied. One name stands for one
thing, so imports of the same name have to agree on what that is. -/
def ofImports? (imports : List Import) : Option (List Target) :=
  if imports.Pairwise Import.Agrees then ofEach? imports else none

end Target

/-- What the operands of an imported host call amount to. -/
inductive Request where
  /-- A host call to be performed. -/
  | perform (call : Call)
  /-- An argument is too wide; the guest is told at once. -/
  | refuse (errno : ErrNo)
  deriving DecidableEq, Inhabited

namespace Request

/-- Reads a host call from the operands of its import, in the order of the parameters. -/
def ofOperands? : CallName → List Word → Option Request
  | .argsGet, [.i32 a, .i32 b] => some (.perform (.argsGet a b))
  | .argsSizesGet, [.i32 a, .i32 b] => some (.perform (.argsSizesGet a b))
  | .environGet, [.i32 a, .i32 b] => some (.perform (.environGet a b))
  | .environSizesGet, [.i32 a, .i32 b] => some (.perform (.environSizesGet a b))
  | .clockResGet, [.i32 a, .i32 b] => some (.perform (.clockResGet a b))
  | .clockTimeGet, [.i32 a, .i64 b, .i32 c] => some (.perform (.clockTimeGet a b c))
  | .fdClose, [.i32 a] => some (.perform (.fdClose a))
  | .fdFdstatGet, [.i32 a, .i32 b] => some (.perform (.fdFdstatGet a b))
  | .fdFdstatSetFlags, [.i32 a, .i32 flags] =>
    if flags.toNat < UInt16.size then some (.perform (.fdFdstatSetFlags a flags))
    else some (.refuse .inval)
  | .fdPrestatGet, [.i32 a, .i32 b] => some (.perform (.fdPrestatGet a b))
  | .fdPrestatDirName, [.i32 a, .i32 b, .i32 c] => some (.perform (.fdPrestatDirName a b c))
  | .fdRead, [.i32 a, .i32 b, .i32 c, .i32 d] => some (.perform (.fdRead a b c d))
  | .fdSeek, [.i32 a, .i64 offset, .i32 whence, .i32 d] =>
    if whence.toNat < UInt8.size then some (.perform (.fdSeek a offset.toInt64 whence d))
    else some (.refuse .inval)
  | .fdWrite, [.i32 a, .i32 b, .i32 c, .i32 d] => some (.perform (.fdWrite a b c d))
  | .pathFilestatGet, [.i32 a, .i32 b, .i32 c, .i32 d, .i32 e] =>
    some (.perform (.pathFilestatGet a b c d e))
  | .pathOpen, [.i32 a, .i32 b, .i32 c, .i32 d, .i32 e, .i64 f, .i64 g, .i32 h, .i32 i] =>
    some (.perform (.pathOpen a b c d e f g h i))
  | .procExit, [.i32 a] => some (.perform (.procExit a))
  | .randomGet, [.i32 a, .i32 b] => some (.perform (.randomGet a b))
  | _, _ => none

end Request

end WasiHost
