import WasiHost.Call.Perform
import WasiHost.Engine.Ending
import WasiHost.Engine.Link
import WasiHost.Wasm.Binary

/-!
# Running a program in a session

A program is read, linked and set up: its segments are put into memory and its start function runs.
Then its entry point is looked up and run. On the way the machine stops at every host call, which is
performed on the session and on the memory that the program exports.

The outcome of a run is the exit code that the session has recorded, whatever became of the entry
point; without one it is zero for an entry point that returns, and its failure otherwise. A failure
before the entry point runs is the outcome in any case.

`Run.step` runs one instruction, so a caller that provides the answers of the host itself can ask
between any two; `execute` runs to the end against answers that are given beforehand.
-/

namespace WasiHost

open Wasm

/-- Which function of the program runs. -/
inductive Stage where
  /-- The start function, while the program is being set up. -/
  | start
  /-- The entry point. -/
  | entry
  deriving DecidableEq, Inhabited

/-- A program that is being run in a session. -/
structure Run where
  module : Module
  /-- What the imported functions are tied to. -/
  targets : List Target
  stage : Stage
  machine : Machine
  session : Session
  deriving Inhabited

/-- A run that goes on or has an outcome. -/
inductive Progress where
  | running (run : Run)
  | finished (outcome : Except Failure UInt32) (session : Session)
  deriving Inhabited

/-- A run with what was let out on the way, in order. -/
structure Advance where
  progress : Progress
  events : List Event
  deriving Inhabited

namespace Advance

/-- Puts events before those of an advance. -/
def preceded (events : List Event) (advance : Advance) : Advance :=
  { advance with events := events ++ advance.events }

/-- A run that fails. -/
def fail (failure : Failure) (session : Session) (events : List Event) : Advance :=
  { progress := .finished (.error failure) session, events := events }

end Advance

namespace Run

/-! ## The stages of a run -/

/-- The arguments that an entry point is called with, if it has a signature that entry points may
have. -/
def entryArguments? (signature : Signature) : Option (List Word) :=
  if signature.params = [] then some []
  else if signature.params = [.i32, .i32] then some [.i32 0, .i32 0]
  else none

/-- The text of an exit code in the log. -/
def exitCodeText : Option UInt32 → String
  | none => "None"
  | some code => "Some(" ++ toString code ++ ")"

/-- The outcome of a run whose entry point has ended. -/
def outcome (session : Session) (ending : Ending) : Except Failure UInt32 :=
  match session.exitCode with
  | some code => .ok code
  | none =>
    match ending with
    | .returned => .ok 0
    | .failed failure _ => .error failure

/-- Ends a run whose entry point has ended. -/
def conclude (session : Session) (ending : Ending) : Advance :=
  let trace := match session.exitCode with
    | some _ => []
    | none => [Event.engineInfo ("The return trace: " ++ ending.text)]
  { progress := .finished (outcome session ending) session
    events :=
      [Event.engineInfo "Execution returns.",
        Event.engineInfo ("Exit code " ++ exitCodeText session.exitCode)] ++ trace }

/-- The state of a program before a function of it runs: the store and a machine that has nothing to
do. -/
def idle (store : Option Store) : Machine :=
  { store := store
    current :=
      { function := none, place := 0, locals := #[], operands := [], code := [], labels := [],
        results := 0, stack := Activation.hostRoom }
    callers := [] }

/-- A machine that calls a function, given by index. The function may be an import. -/
def calling (store : Option Store) (index : Nat) (arguments : List Word) : Machine :=
  { idle store with
    current :=
      { (idle store).current with operands := arguments.reverse, code := [(0, .call index)] } }

/-- Runs the entry point of a program that has been set up. -/
def enter (run : Run) (store : Option Store) : Advance :=
  match run.module.export? names.entryPoint with
  | none => Advance.fail (.fatal .noEntryPoint) run.session
      [Event.engineInfo "Linker instantiates."]
  | some kind =>
    let events :=
      [Event.engineInfo "Linker instantiates.", Event.engineInfo "Get the main function."]
    let signature := match kind with
      | .function index => (run.module.signature? index).map fun signature => (index, signature)
      | _ => none
    match signature with
    | none => Advance.fail (.fatal .noEntryPoint) run.session events
    | some (index, signature) =>
      match entryArguments? signature with
      | none => Advance.fail (.fatal .noEntryPoint) run.session events
      | some arguments =>
        if signature.results = [] then
          { progress :=
              .running { run with stage := .entry, machine := calling store index arguments }
            events := events }
        else Advance.fail .engine run.session events

/-- Goes on after a function of the program has ended. -/
def proceed (run : Run) (store : Option Store) (ending : Ending) : Advance :=
  match run.stage, ending with
  | .start, .returned => run.enter store
  | .start, .failed failure _ => Advance.fail failure run.session []
  | .entry, ending => conclude run.session ending

/-! ## Host calls on the way -/

/-- Whether host calls of a program work on its memory. -/
def exportsMemory (module : Module) : Bool :=
  match module.export? names.memory with
  | some (.memory _) => true
  | _ => false

/-- The results that a host call has on the stack of the program. -/
def results (call : CallName) (answer : UInt64) : List Word :=
  if call.signature.results = [] then [] else [.i32 answer.toUInt32]

/-- What imported functions are tied to, given the operands of a call: a request, or nothing if no
one provides the function. -/
def request? (targets : List Target) (function : Nat) (operands : List Word) :
    Option (CallName × Request) :=
  match targets[function]? with
  | some (.call name) => (Request.ofOperands? name operands).map fun request => (name, request)
  | _ => none

/-- Why an imported function fails that is tied to no host call. -/
def unprovided (targets : List Target) (function : Nat) : Failure :=
  match targets[function]? with
  | some (.unprovided moduleName name) => .unprovided moduleName name
  | _ => .engine

/-- The memory that host calls work on. -/
def sharedMemory (run : Run) : Memory :=
  match run.machine.store with
  | some store =>
    if exportsMemory run.module then .attached { bytes := store.bytes } else .detached
  | none => .detached

/-- The host call that the next step performs, if it performs one. -/
def pending? (run : Run) : Option Call :=
  match run.machine.current.code with
  | (_, .call function) :: _ =>
    match run.module.signature? function with
    | some signature =>
      let operands := run.machine.current.operands.take signature.params.length
      match request? run.targets function operands.reverse with
      | some (_, .perform call) => some call
      | _ => none
    | none => none
  | _ => none

/-- Performs a host call of a program on the memory that it exports. -/
def performOn (host : Host) (module : Module) (call : Call) (session : Session)
    (store : Option Store) : Reply × Option Store :=
  match store with
  | none => (call.perform host session .detached, none)
  | some { bytes, most } =>
    if exportsMemory module then
      let reply := call.perform host session (.attached { bytes := bytes })
      match reply.memory with
      | .attached linear =>
        ({ reply with memory := .detached }, some { bytes := linear.bytes, most := most })
      | .detached => (reply, none)
    else (call.perform host session .detached, some { bytes, most })

/-- Goes on after the machine has come to an imported function. -/
def callImport (host : Host) (run : Run) (function : Nat) (operands : List Word)
    (machine : Machine) : Advance :=
  match request? run.targets function operands with
  | some (name, .perform call) =>
    match machine with
    | { store, current, callers } =>
      let (reply, store) := performOn host run.module call run.session store
      let run := { run with session := reply.session }
      let machine : Machine := { store, current, callers }
      match reply.answer with
      | .ok answer =>
        { progress := .running { run with machine := machine.resume (results name answer) }
          events := reply.events }
      | .error error =>
        (run.proceed none (.failed (.fatal error) machine.trace)).preceded reply.events
  | some (name, .refuse errno) =>
    let machine := machine.resume (results name errno.code.toUInt64)
    { progress := .running { run with machine := machine }, events := [] }
  | none => run.proceed none (.failed (unprovided run.targets function) machine.trace)

/-- Goes on after the machine of a run has taken a step. -/
def react (host : Host) (run : Run) : Wasm.Step → Advance
  | .running machine => { progress := .running { run with machine := machine }, events := [] }
  | .calling function operands machine => run.callImport host function operands machine
  | .returned store => run.proceed store .returned
  | .trapped trap machine => run.proceed none (.failed (.trap trap) machine.trace)
  | .stuck => run.proceed none (.failed .engine [])

/-- Runs one instruction. -/
def step (host : Host) (run : Run) : Advance :=
  match run with
  | { module, targets, stage, machine, session } =>
    let rest : Run := { module, targets, stage, session, machine := idle none }
    rest.react host (machine.step module)

/-! ## Setting up -/

/-- Puts the segments of a program into its memory, one by one. -/
def fill : Option Store → List Segment → Option (Option Store)
  | store, [] => some store
  | none, _ :: _ => none
  | some store, segment :: rest =>
    if segment.address.toNat + segment.bytes.length ≤ store.bytes.size then
      fill (some (store.write segment.address.toNat segment.bytes)) rest
    else none

/-- Sets a program up: links it, fills its memory, and runs its start function if it has one. -/
def setUp (module : Module) (session : Session) : Advance :=
  match Target.ofImports? module.imports with
  | none => Advance.fail .engine session []
  | some targets =>
    match fill (module.memory.map Store.ofLimits) module.segments with
    | none => Advance.fail (.trap (.outOfBounds none)) session []
    | some store =>
      let targets := targets.zip module.imports |>.filterMap fun (target, i) =>
        match i.kind with
        | .function _ => some target
        | _ => none
      let run : Run :=
        { module, targets, stage := .start, machine := idle store, session }
      match module.start with
      | none => run.enter store
      | some index =>
        { progress := .running { run with machine := calling store index [] }, events := [] }

/-- Begins to run a program, given in its binary form. -/
def start (program : Bytes) (session : Session) : Advance :=
  match Module.ofBytes? program with
  | none => Advance.fail .engine session []
  | some module =>
    (setUp module session).preceded
      [Event.engineInfo "Initialized Wasmtime engine.",
        Event.engineInfo "Link external functions."]

end Run

/-! ## Running to the end -/

/-- What comes of running a program to the end. -/
structure Execution where
  outcome : Except Failure UInt32
  session : Session
  /-- What was let out, in order. -/
  events : List Event
  deriving Inhabited

namespace Progress

/-- Runs on for at most `fuel` instructions, and answers what was let out in reverse order of the
instructions. The host is asked by the number of instructions run so far; `none` is a run that has
not come to its end. -/
def finish? (host : Nat → Host) (fuel : Nat) (progress : Progress) (events : List (List Event)) :
    Option Execution :=
  match progress with
  | .finished outcome session => some { outcome, session, events := events.reverse.flatten }
  | .running run =>
    match fuel with
    | 0 => none
    | fuel + 1 =>
      let advance := run.step (host fuel)
      finish? host fuel advance.progress
        (if advance.events = [] then events else advance.events :: events)

end Progress

/-- Runs a program in a session for at most `fuel` instructions. -/
def execute? (host : Nat → Host) (fuel : Nat) (program : Bytes) (session : Session) :
    Option Execution :=
  let advance := Run.start program session
  advance.progress.finish? host fuel [advance.events]

end WasiHost
