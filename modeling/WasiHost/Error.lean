import WasiHost.Abi.CallName
import WasiHost.Abi.ErrNo

/-!
# How a host call fails

A host call fails either with an error number, which the guest is told, or fatally, which ends the
run. Errors are kept as causes; `message` gives their wording.
-/

namespace WasiHost

/-- A failure that the guest can do nothing about: a mistake of the embedding or of the engine. -/
inductive FatalError where
  /-- The guest has no memory, or does not export it. -/
  | noMemory
  /-- The guest has no allocator. -/
  | noAllocator
  /-- The guest's allocator failed. -/
  | allocatorFailed (reason : String)
  /-- A host call was given the wrong number of integers, or one that is too wide. -/
  | badArguments (call : CallName)
  /-- There is no host call of that name. -/
  | unknownCall (name : String)
  /-- The program has no entry point, or one of the wrong kind. -/
  | noEntryPoint
  /-- There is no engine to run programs with. -/
  | engineNotReady
  /-- The session is held by someone else. -/
  | sessionBusy
  deriving DecidableEq, Inhabited

namespace FatalError

/-- The name of the kind of failure. -/
def kind : FatalError → String
  | noMemory => "NoMemoryRegistered"
  | noAllocator => "NoAllocatorRegistered"
  | allocatorFailed _ => "AllocatorFailed"
  | badArguments _ => "BadArgumentsToHostFunction"
  | unknownCall _ => "UnknownHostFunction"
  | noEntryPoint => "NoProgramEntryPoint"
  | engineNotReady => "EngineIsNotReady"
  | sessionBusy => "FailedToObtainLock"

/-- The wording of the failure. -/
def message (error : FatalError) : String :=
  "FatalShimError: " ++ match error with
    | noMemory =>
      "No WASM memory registered. The guest must be attached and export `memory` before any call."
    | noAllocator => "No guest allocator registered (expected an export `malloc`)."
    | allocatorFailed reason => "The guest allocator failed: " ++ reason ++ "."
    | badArguments call =>
      "Bad arguments passed to host function '" ++ call.constantName ++ "'."
    | unknownCall name => "Unknown Host call invoked: '" ++ name ++ "'."
    | noEntryPoint => "Failed to find the entry point in the WASM program."
    | engineNotReady => "Execution engine is not ready."
    | sessionBusy => "Failed to obtain lock on the shim."

end FatalError

/-- How the body of a host call fails. -/
inductive CallError where
  /-- The guest is told. -/
  | guest (errno : ErrNo)
  /-- The run ends. -/
  | fatal (error : FatalError)
  deriving DecidableEq, Inhabited

namespace CallError

/-- The name of the kind of failure. -/
def kind : CallError → String
  | guest errno => errno.name
  | fatal error => error.kind

/-- The wording of the failure. -/
def message : CallError → String
  | guest errno => "guest error " ++ errno.name
  | fatal error => error.message

end CallError

end WasiHost
