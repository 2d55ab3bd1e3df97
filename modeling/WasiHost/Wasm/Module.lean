import WasiHost.Abi.LittleEndian

/-!
# Programs

A program is a WebAssembly module. This is the part of WebAssembly that is understood here:
integers, one memory, structured control without block results, and calls. -/

namespace WasiHost

namespace Wasm

/-- The type of a value. Only integers are computed with; the others may occur in signatures. -/
inductive ValueType where
  | i32
  | i64
  | f32
  | f64
  | v128
  | funcref
  | externref
  deriving DecidableEq, Inhabited

/-- The parameters and results of a function. -/
structure Signature where
  params : List ValueType
  results : List ValueType
  deriving DecidableEq, Inhabited

/-- An instruction. Blocks leave nothing on the stack, and their bodies say where in the octets of
the module each instruction begins. -/
inductive Instr where
  | unreachable
  | block (body : List (Nat × Instr))
  | loop (body : List (Nat × Instr))
  /-- Enters the body if the operand is not zero. -/
  | cond (body : List (Nat × Instr))
  | br (label : Nat)
  | brIf (label : Nat)
  | call (function : Nat)
  | drop
  | localGet (index : Nat)
  | localSet (index : Nat)
  | localTee (index : Nat)
  | load32 (offset : Nat)
  | store32 (offset : Nat)
  | store8 (offset : Nat)
  | memorySize
  | memoryGrow
  | const32 (n : UInt32)
  | const64 (n : UInt64)
  | eqz32
  | add32
  | divU32
  deriving Inhabited

/-- Instructions, each with its place: the index in the octets of the module at which it begins. -/
abbrev Code := List (Nat × Instr)

/-- The most pages a memory can have. -/
def pageLimit : Nat := 65536

/-- How many pages a memory has at first, and at most. -/
structure Limits where
  least : Nat
  most : Option Nat
  deriving DecidableEq, Inhabited

/-- What an import stands for. -/
inductive ImportKind where
  | function (signature : Signature)
  | table
  | memory
  | global
  deriving DecidableEq, Inhabited

/-- An import: the name of the other module, the name there, and what it stands for. -/
structure Import where
  moduleName : String
  name : String
  kind : ImportKind
  deriving DecidableEq, Inhabited

/-- Whether two imports stand for the same kind of thing if they have the same names. -/
def Import.Agrees (i j : Import) : Prop :=
  i.moduleName = j.moduleName ∧ i.name = j.name → i.kind = j.kind

instance (i j : Import) : Decidable (i.Agrees j) :=
  inferInstanceAs (Decidable (_ → _))

/-- What an export gives out, by index. -/
inductive ExportKind where
  | function (index : Nat)
  | table (index : Nat)
  | memory (index : Nat)
  | global (index : Nat)
  deriving DecidableEq, Inhabited

/-- A function: its signature, the types of its further locals, and its code. -/
structure Function where
  signature : Signature
  locals : List ValueType
  body : Code
  /-- How many octets of the stack it takes. -/
  room : Nat
  deriving Inhabited

/-- Octets that are put into memory at first. -/
structure Segment where
  address : UInt32
  bytes : Bytes
  deriving DecidableEq, Inhabited

/-- A program. -/
structure Module where
  imports : List Import
  functions : Array Function
  memory : Option Limits
  exports : List (String × ExportKind)
  /-- The function that runs when the program is set up. -/
  start : Option Nat
  segments : List Segment
  deriving Inhabited

namespace Module

/-- The imports that are functions, in order. -/
def functionImports (module : Module) : List (Import × Signature) :=
  module.imports.filterMap fun i =>
    match i.kind with
    | .function signature => some (i, signature)
    | _ => none

/-- The signature of a function by index; imports come first. -/
def signature? (module : Module) (index : Nat) : Option Signature :=
  let imports := module.functionImports
  match imports[index]? with
  | some (_, signature) => some signature
  | none => (module.functions[index - imports.length]?).map Function.signature

/-- What is exported under a name. -/
def export? (module : Module) (name : String) : Option ExportKind :=
  (module.exports.find? fun entry => entry.1 = name).map Prod.snd

end Module

end Wasm

end WasiHost
