import WasiHost.CommandLine.Settings
import WasiHost.Engine.Run

/-!
# Tasks

A task is a program with its settings, both read in. Running it in a session that begins gives the
exit code of the command line.

What happens on the way is told in the log, so every function here answers events as well.
-/

namespace WasiHost

/-- Why a task has no exit code. -/
inductive TaskError where
  | settings (error : SettingsError)
  /-- The file that holds the program cannot be read. -/
  | noProgram (path : String) (error : HostError)
  /-- The program was run and failed. -/
  | failed (failure : Failure)
  deriving DecidableEq, Inhabited

/-- A program with its settings. -/
structure Task where
  settings : Settings
  program : Bytes
  deriving DecidableEq, Inhabited

/-- How the command line ends, with what was let out on the way, in order. -/
structure Conclusion where
  code : Except TaskError UInt32
  events : List Event
  deriving Inhabited

namespace Task

/-- The log lines of reading an invocation that yields settings or an error. -/
def settingsEvents (invocation : Invocation) (settings : Except SettingsError Settings) :
    List Event :=
  let config := match invocation.config with
    | some path => [Event.programInfo ("Loading options from '" ++ path ++ "'.")]
    | none => []
  let read := match settings with
    | .ok _ => [Event.programInfo "Command line read successfully."]
    | .error _ => []
  Event.programInfo "Parsed command line." :: config ++ read

/-- Reads what an invocation names. -/
def load (read : String → Except HostError Bytes) (invocation : Invocation) :
    Except TaskError Task × List Event :=
  let loaded := Settings.load read invocation
  let events := settingsEvents invocation loaded
  match loaded with
  | .error error => (.error (.settings error), events)
  | .ok settings =>
    match read settings.program with
    | .error error => (.error (.noProgram settings.program error), events)
    | .ok program =>
      let serving := "Serving " ++ quoted settings.root ++ " as the root directory of " ++
        quoted settings.program ++ "."
      (.ok { settings := settings, program := program }, events ++ [Event.programInfo serving])

/-- The session that a task begins with. -/
def session (task : Task) : Session :=
  Session.initial.withOptions task.settings.options

/-- The exit code of the command line for the exit code of a program. -/
def shellCode (code : UInt32) : UInt32 :=
  code % 256

/-- Ends a task whose program has ended; `elapsed` is how long it took, in microseconds. -/
def conclude (elapsed : String) (outcome : Except Failure UInt32) : Conclusion :=
  match outcome with
  | .error failure => { code := .error (.failed failure), events := [] }
  | .ok code =>
    { code := .ok (shellCode code)
      events :=
        [Event.programInfo
          ("Program returned " ++ toString code ++ " in " ++ elapsed ++ " micro seconds.")] }

/-- Runs an invocation to its end, if that takes at most `fuel` instructions of the program. -/
def perform? (read : String → Except HostError Bytes) (host : String → Host) (elapsed : String)
    (fuel : Nat) (invocation : Invocation) : Option Conclusion :=
  match load read invocation with
  | (.error error, events) => some { code := .error error, events := events }
  | (.ok task, events) =>
    match execute? (fun _ => host task.settings.root) fuel task.program task.session with
    | none => none
    | some execution =>
      let conclusion := conclude elapsed execution.outcome
      some { conclusion with events := events ++ execution.events ++ conclusion.events }

end Task

namespace TaskError

/-- The wording of the error. -/
def message : TaskError → String
  | settings error => error.message
  | noProgram path error => "Failed to read program " ++ quoted path ++ ": " ++ error.message
  | failed failure => failure.message

end TaskError

end WasiHost
