import WasiHost.Error
import WasiHost.Text.Alignment
import WasiHost.Text.Numeral
import WasiHost.Wasm.Machine

/-!
# How functions end

A function of a program returns, or fails. A failure is told with what has caused it and with the
frames of the functions that were active, so that one sees in which instruction of which function it
happened.
-/

namespace WasiHost

open Wasm

/-- Why a run has no exit code. -/
inductive Failure where
  /-- A host call failed fatally, or the program has no entry point. -/
  | fatal (error : FatalError)
  /-- The program was stopped. -/
  | trap (reason : Trap)
  /-- The program called a function that no one provides, given with the module it is imported
  from. -/
  | unprovided (moduleName name : String)
  /-- The engine refuses the program, or something it does. -/
  | engine
  deriving DecidableEq, Inhabited

/-- How a function of the program has ended. -/
inductive Ending where
  | returned
  /-- The function failed; the frames are of the functions that were active, the innermost first. -/
  | failed (failure : Failure) (trace : List Frame)
  deriving DecidableEq, Inhabited

/-! ## Causes -/

/-- The causes of a trap, the nearest first. -/
def Wasm.Trap.causes : Trap → List String
  | .unreachable => ["wasm trap: wasm `unreachable` instruction executed"]
  | .divisionByZero => ["wasm trap: integer divide by zero"]
  | .outOfBounds fault =>
    fault.toList.map faultText ++ ["wasm trap: out of bounds memory access"]
  | .stackOverflow => ["wasm trap: call stack exhausted"]
where
  /-- The text of an access to an address that the memory does not have. -/
  faultText (fault : Fault) : String :=
    "memory fault at wasm address " ++ Numeral.hex fault.address ++ " in linear memory of size " ++
      Numeral.hex fault.size

namespace Failure

/-- The causes of a failure, the nearest first. -/
def causes : Failure → List String
  | fatal error => [error.message]
  | trap reason => reason.causes
  | unprovided moduleName name =>
    ["unknown import: `" ++ moduleName ++ "::" ++ name ++ "` has not been defined"]
  | engine => ["the engine refused the program"]

/-! ## Reports -/

/-- The line of a frame, which is the `i`-th of a trace. -/
def frameText (i : Nat) (frame : Frame) : String :=
  "  " ++ Alignment.right 3 (toString i) ++ ": " ++ Alignment.right 6 (Numeral.hex frame.place) ++
    " - <unknown>!<wasm function " ++ toString frame.function ++ ">"

/-- The lines of a trace. -/
def traceText (trace : List Frame) : String :=
  "error while executing at wasm backtrace:" ++
    String.join (trace.zipIdx.map fun (frame, i) => "\n" ++ frameText i frame)

/-- A message followed by what has caused it. Causes are numbered if there are several. -/
def withCauses (message : String) : List String → String
  | [] => message
  | [cause] => message ++ "\n\nCaused by:\n    " ++ Alignment.hanging 4 cause
  | causes =>
    message ++ "\n\nCaused by:" ++ String.join (causes.zipIdx.map fun (cause, i) =>
      "\n" ++ Alignment.right 5 (toString i) ++ ": " ++ Alignment.hanging 7 cause)

/-- What is told of a failure while functions were active, if any were. -/
def report (failure : Failure) (trace : List Frame) : String :=
  match trace, failure.causes with
  | _ :: _, causes => withCauses (traceText trace) causes
  | [], [] => ""
  | [], cause :: causes => withCauses cause causes

/-- The wording of the failure. -/
def message (failure : Failure) : String :=
  failure.report []

end Failure

/-- The text of an ending in the log. -/
def Ending.text : Ending → String
  | returned => "Ok(()), (`proc_exit` is not called)."
  | failed failure trace =>
    "Err(" ++ failure.report trace ++ "), (`proc_exit` is not called)."

end WasiHost
