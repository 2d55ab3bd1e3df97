import WasiHost.Memory.Basic
import WasiHost.Wasm.Module

/-!
# Running programs

A machine holds the memory of a program and the functions that are active, each with its locals, its
operands, the code still to run and the blocks around it. `Machine.step` runs one instruction. A
call of an imported function stops the machine, which waits for `Machine.resume`. Functions that
call one another without end run out of stack, which stops the program. `Machine.trace` says where
every active function has come to.

Operand lists stand with the top of the stack first.
-/

namespace WasiHost

namespace Wasm

/-- A value that is computed with. -/
inductive Word where
  | i32 (n : UInt32)
  | i64 (n : UInt64)
  deriving DecidableEq, Inhabited

/-- An access to an address that a memory does not have. -/
structure Fault where
  address : Nat
  /-- The size of the memory. -/
  size : Nat
  deriving DecidableEq, Inhabited

/-- Why a program is stopped. -/
inductive Trap where
  | unreachable
  | divisionByZero
  /-- An access goes beyond the memory. An access that is refused before it is tried has no fault.
  -/
  | outOfBounds (fault : Option Fault)
  /-- The functions that are active would take more than the stack has. -/
  | stackOverflow
  deriving DecidableEq, Inhabited

/-- The memory of a program. -/
structure Store where
  bytes : Octets
  /-- The most pages the memory can have. -/
  most : Nat
  deriving DecidableEq, Inhabited

namespace Store

/-- The number of octets in a page. -/
def pageSize : Nat := 65536

/-- The memory of a program that begins. -/
def ofLimits (limits : Limits) : Store :=
  { bytes := Octets.zeros (limits.least * pageSize), most := limits.most.getD pageLimit }

/-- How many pages the memory has. -/
def pages (store : Store) : Nat :=
  store.bytes.size / pageSize

/-- The memory with more pages. -/
def grow (store : Store) (more : Nat) : Store :=
  { store with bytes := store.bytes.grow (more * pageSize) }

/-- The octets of a range that has no wrap-around. -/
def read? (store : Store) (address length : Nat) : Option Bytes :=
  if address + length ≤ store.bytes.size then some (store.bytes.slice address length) else none

/-- The octets that a memory has room for: four gigabytes. -/
def reserved : Nat := UInt32.size

/-- The octets after those that are guarded: two gigabytes. -/
def guarded : Nat := UInt32.size / 2

/-- The fault of an access that goes beyond the memory, at the first address that the memory does
not have. It is the guard that meets an access which ends where the memory has room, and any whose
offset cannot take it over the guard. Another access is refused before it is tried and has no fault.
-/
def fault? (store : Store) (address offset length : Nat) : Option Fault :=
  if offset + length ≤ guarded + 1 ∨ address + offset + length ≤ reserved then
    some { address := max (address + offset) store.bytes.size, size := store.bytes.size }
  else none

/-- The memory with octets put at an address; what would lie outside is dropped. -/
def write (store : Store) (address : Nat) (data : Bytes) : Store :=
  { store with bytes := store.bytes.write address data }

end Store

/-- A block that is being run. -/
structure Label where
  /-- For a loop, the code that a branch runs again. -/
  again : Option Code
  /-- The code after the block. -/
  after : Code
  /-- The operands below the block. -/
  below : List Word
  deriving Inhabited

/-- Where a function has come to. -/
structure Frame where
  /-- The index of the function. -/
  function : Nat
  /-- The place of the instruction that it runs. -/
  place : Nat
  deriving DecidableEq, Inhabited

/-- A function that is active. -/
structure Activation where
  /-- The index of the function; the host, which calls the first one, has none. -/
  function : Option Nat
  /-- The place of the instruction that runs, or waits for a function that it calls. -/
  place : Nat
  locals : Array Word
  operands : List Word
  code : Code
  /-- The blocks around the code, the innermost first. -/
  labels : List Label
  /-- How many results the function has. -/
  results : Nat
  /-- How many octets of the stack it takes together with what was called before it. -/
  stack : Nat
  deriving Inhabited

/-- A program that is being run. -/
structure Machine where
  store : Option Store
  /-- The function that runs. -/
  current : Activation
  /-- The functions that wait for it, the nearest first. -/
  callers : List Activation
  deriving Inhabited

/-- What comes of running one instruction. -/
inductive Step where
  /-- The machine goes on. -/
  | running (machine : Machine)
  /-- An imported function is called; the machine waits for its results. -/
  | calling (function : Nat) (operands : List Word) (machine : Machine)
  /-- The outermost function has returned. -/
  | returned (store : Option Store)
  /-- The program is stopped where the machine is. -/
  | trapped (trap : Trap) (machine : Machine)
  /-- The program does something that no well-typed program does. -/
  | stuck
  deriving Inhabited

/-- The zero of a type, for locals. -/
def ValueType.zero : ValueType → Word
  | i64 | f64 => .i64 0
  | _ => .i32 0

namespace Activation

/-- The octets of the stack: 512 KiB. -/
def stackSize : Nat := 512 * 1024

/-- The octets of the stack that the host takes when it calls a function. -/
def hostRoom : Nat := 640

/-- A function, given with its index, that begins with given arguments on a stack of which so many
octets are taken. -/
def start (index : Nat) (function : Function) (arguments : List Word) (stack : Nat) : Activation :=
  { function := some index
    place := 0
    locals := (arguments ++ function.locals.map ValueType.zero).toArray
    operands := []
    code := function.body
    labels := []
    results := function.signature.results.length
    stack }

/-- Where the function has come to. -/
def frame? (a : Activation) : Option Frame :=
  a.function.map fun function => { function, place := a.place }

/-- Goes on after a block is entered. -/
def enter (a : Activation) (again : Option Code) (body after : Code)
    (operands : List Word) : Activation :=
  { a with
    operands := []
    code := body
    labels := { again, after, below := operands } :: a.labels }

/-- Branches out of a number of blocks, or returns from the function if there are just as many. A
loop that is branched to begins again with no operands of its own: those below it stay with its
label until the loop ends. -/
def branch? (a : Activation) (label : Nat) : Option Activation :=
  match a.labels[label]? with
  | some { again := some body, .. } =>
    some { a with operands := [], code := body, labels := a.labels.drop label }
  | some { again := none, after, below } =>
    some { a with operands := below, code := after, labels := a.labels.drop (label + 1) }
  | none => if label = a.labels.length then some { a with code := [], labels := [] } else none

end Activation

namespace Machine

/-- Where the active functions have come to, the one that runs first. -/
def trace (machine : Machine) : List Frame :=
  (machine.current :: machine.callers).filterMap Activation.frame?

/-- The machine that has come to a place. -/
def reach (machine : Machine) (place : Nat) : Machine :=
  { machine with current := { machine.current with place := place } }

/-- The machine with the results of an imported function put on the stack. -/
def resume (machine : Machine) (results : List Word) : Machine :=
  { machine with
    current := { machine.current with operands := results ++ machine.current.operands } }

/-- The machine with a word put into a local of the current function. -/
def setLocal (machine : Machine) (index : Nat) (word : Word) : Machine :=
  match machine with
  | { store, current, callers } =>
    { store, callers
      current := { current with locals := current.locals.setIfInBounds index word } }

/-- Goes on in another state of the current function. -/
def continueWith (machine : Machine) (current : Activation) : Step :=
  .running { machine with current := current }

/-- The current function has no more code: the innermost block ends, or the function returns. -/
def leave (machine : Machine) : Step :=
  let a := machine.current
  match a.labels with
  | label :: labels =>
    machine.continueWith
      { a with operands := a.operands ++ label.below, code := label.after, labels := labels }
  | [] =>
    match machine.callers with
    | [] => .returned machine.store
    | caller :: callers =>
      let operands := a.operands.take a.results ++ caller.operands
      .running { machine with current := { caller with operands }, callers }

/-- Calls a function. One of the program's own needs room on the stack. -/
def enterFunction (module : Module) (machine : Machine) (rest : Code) (index : Nat) : Step :=
  let a := machine.current
  match module.signature? index with
  | none => .stuck
  | some signature =>
    let arity := signature.params.length
    if a.operands.length < arity then .stuck
    else
      let arguments := (a.operands.take arity).reverse
      let caller := { a with operands := a.operands.drop arity, code := rest }
      let imports := module.functionImports.length
      if index < imports then .calling index arguments { machine with current := caller }
      else
        match module.functions[index - imports]? with
        | none => .stuck
        | some function =>
          let stack := a.stack + function.room
          if stack ≤ Activation.stackSize then
            .running
              { machine with
                current := Activation.start index function arguments stack
                callers := caller :: machine.callers }
          else .trapped .stackOverflow machine

/-- Goes on with other operands and the code `rest`. -/
def goOn (machine : Machine) (operands : List Word) (rest : Code) : Step :=
  .running { machine with current := { machine.current with operands, code := rest } }

/-- Branches out of a number of blocks. -/
def branchTo (machine : Machine) (operands : List Word) (label : Nat) : Step :=
  match { machine.current with operands }.branch? label with
  | some a => machine.continueWith a
  | none => .stuck

/-- The machine whose memory has octets put at an offset from an address, with other operands and
code. The memory is taken out of the machine before it is changed, so that it need not be copied. -/
def storeOctets (machine : Machine) (address offset : Nat) (data : Bytes) (operands : List Word)
    (rest : Code) : Step :=
  match machine with
  | { store := none, .. } => .stuck
  | { store := some memory, current, callers } =>
    if address + offset + data.length ≤ memory.bytes.size then
      .running
        { store := some (memory.write (address + offset) data)
          current := { current with operands, code := rest }
          callers }
    else
      .trapped (.outOfBounds (memory.fault? address offset data.length))
        { store := some memory, current, callers }

/-- The machine that goes on with the 32-bit word at an offset from an address of its memory. -/
def loadWord (machine : Machine) (address offset : Nat) (operands : List Word) (rest : Code) :
    Step :=
  match machine.store with
  | none => .stuck
  | some memory =>
    match memory.read? (address + offset) 4 with
    | none => .trapped (.outOfBounds (memory.fault? address offset 4)) machine
    | some bytes =>
      machine.goOn (.i32 (UInt32.ofNat (LittleEndian.decode bytes)) :: operands) rest

/-- The machine whose memory has more pages if it can have them, with what the program is told. -/
def growStore (machine : Machine) (more : Nat) (operands : List Word) (rest : Code) : Step :=
  match machine with
  | { store := none, .. } => .stuck
  | { store := some memory, current, callers } =>
    let pages := memory.pages
    if pages + more ≤ memory.most then
      .running
        { store := some (memory.grow more)
          current :=
            { current with operands := .i32 (UInt32.ofNat pages) :: operands, code := rest }
          callers }
    else
      .running
        { store := some memory
          current := { current with operands := .i32 0xFFFFFFFF :: operands, code := rest }
          callers }

/-- Runs an instruction of the current function, whose operands are given and whose further code is
`rest`. -/
def execute (module : Module) (machine : Machine) (rest : Code) : Instr → List Word → Step
  | .unreachable, _ => .trapped .unreachable machine
  | .block body, operands =>
    machine.continueWith (machine.current.enter none body rest operands)
  | .loop body, operands =>
    machine.continueWith (machine.current.enter (some body) body rest operands)
  | .cond body, .i32 n :: operands =>
    if n = 0 then machine.goOn operands rest
    else machine.continueWith (machine.current.enter none body rest operands)
  | .br label, operands => machine.branchTo operands label
  | .brIf label, .i32 n :: operands =>
    if n = 0 then machine.goOn operands rest else machine.branchTo operands label
  | .call function, _ => machine.enterFunction module rest function
  | .drop, _ :: operands => machine.goOn operands rest
  | .localGet index, operands =>
    match machine.current.locals[index]? with
    | some word => machine.goOn (word :: operands) rest
    | none => .stuck
  | .localSet index, word :: operands => (machine.setLocal index word).goOn operands rest
  | .localTee index, word :: operands =>
    (machine.setLocal index word).goOn (word :: operands) rest
  | .load32 offset, .i32 address :: operands =>
    machine.loadWord address.toNat offset operands rest
  | .store32 offset, .i32 n :: .i32 address :: operands =>
    machine.storeOctets address.toNat offset (LittleEndian.encode 4 n.toNat) operands rest
  | .store8 offset, .i32 n :: .i32 address :: operands =>
    machine.storeOctets address.toNat offset (LittleEndian.encode 1 n.toNat) operands rest
  | .memorySize, operands =>
    match machine.store with
    | none => .stuck
    | some memory => machine.goOn (.i32 (UInt32.ofNat memory.pages) :: operands) rest
  | .memoryGrow, .i32 more :: operands => machine.growStore more.toNat operands rest
  | .const32 n, operands => machine.goOn (.i32 n :: operands) rest
  | .const64 n, operands => machine.goOn (.i64 n :: operands) rest
  | .eqz32, .i32 n :: operands => machine.goOn (.i32 (if n = 0 then 1 else 0) :: operands) rest
  | .add32, .i32 b :: .i32 a :: operands => machine.goOn (.i32 (a + b) :: operands) rest
  | .divU32, .i32 b :: .i32 a :: operands =>
    if b = 0 then .trapped .divisionByZero machine
    else machine.goOn (.i32 (a / b) :: operands) rest
  | _, _ => .stuck

/-- Runs one instruction. -/
def step (module : Module) (machine : Machine) : Step :=
  match machine.current.code with
  | [] => machine.leave
  | (place, instr) :: rest =>
    (machine.reach place).execute module rest instr machine.current.operands

end Machine

end Wasm

end WasiHost
