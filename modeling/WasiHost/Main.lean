import Std.Time.DateTime.Timestamp
import WasiHost.Call.Question
import WasiHost.CommandLine.Display
import WasiHost.CommandLine.Help
import WasiHost.CommandLine.Task
import WasiHost.FileSystem.HostTree

/-!
# The command

Reads the command line, runs the program over a directory of the host, and ends with its exit code.
Only what touches the host is here; what is to be done is decided elsewhere.
-/

namespace WasiHost

namespace Command

/-! ## Files of the host -/

/-- Why the host could not do something. -/
def hostError : IO.Error → HostError
  | .noFileOrDirectory .. => .notFound
  | .permissionDenied .. => .permissionDenied
  | .alreadyExists .. => .alreadyExists
  | .invalidArgument .. => .invalidInput
  | .unexpectedEof => .unexpectedEof
  | _ => .other

/-- The outcome of an action of the host. -/
def attempt {α : Type} (action : IO α) : IO (Except HostError α) := do
  try return .ok (← action)
  catch error => return .error (hostError error)

/-- The content of a file of the host. -/
def readContent (path : String) : IO (Except HostError Bytes) :=
  attempt do return (← IO.FS.readBinFile path).toList

/-- A moment in nanoseconds since 1970; moments before are shown as zero. -/
def nanoseconds (time : IO.FS.SystemTime) : UInt64 :=
  UInt64.ofNat (time.sec.toNat * 1000000000 + time.nsec.toNat)

/-- The attributes of a file of the host. The host tells neither device nor inode, and of changes
only those of the content. -/
def readAttributes (path : String) : IO (Except HostError FileStat) :=
  attempt do
    let metadata ← ((← IO.currentDir) / path).metadata
    return {
      device := 0
      inode := 0
      fileType := match metadata.type with
        | .dir => .directory
        | .file => .regularFile
        | _ => .unknown
      numLinks := metadata.numLinks
      fileSize := metadata.byteSize
      atime := nanoseconds metadata.accessed
      mtime := nanoseconds metadata.modified
      ctime := nanoseconds metadata.modified }

/-- The filesystem as far as a question goes. -/
def answer (served : String) : Option Question → IO FileSystem
  | none => return { stat := fun _ => .error .noEnt, read := fun _ => .error .noEnt }
  | some (.attributes path) => do
    let stat := (← readAttributes (hostPath served path)).mapError HostError.toErrNo
    return { stat := fun _ => stat, read := fun _ => .error .noEnt }
  | some (.content path) => do
    let path := hostPath served path
    let isDirectory := match ← readAttributes path with
      | .ok stat => stat.isDirectory
      | .error _ => false
    let content ←
      if isDirectory then pure (.error .isDir)
      else do pure ((← readContent path).mapError HostError.toErrNo)
    return { stat := fun _ => .error .noEnt, read := fun _ => content }

/-! ## Time and chance -/

/-- The time of the host. -/
def readClock : IO (Except ErrNo UInt64) := do
  let now := (← Std.Time.Timestamp.now).toNanosecondsSinceUnixEpoch.toInt
  if now < 0 then return .error .io
  else if now < UInt64.size then return .ok (UInt64.ofNat now.toNat)
  else return .error .overflow

/-- Random octets for a call, as many as it can use. -/
def readRandom (memory : Memory) : Call → IO ByteArray
  | .randomGet _ length =>
    match memory.size with
    | .ok size => IO.getRandomBytes (min size length).toUSize
    | .error _ => return .empty
  | _ => return .empty

/-- What the host offers for the next step of a run. -/
def hostFor (served : String) (run : Run) : IO Host :=
  match run.pending? with
  | none => return { fileSystem := ← answer served none, clock := .error .io, random := fun _ => 0 }
  | some call => do
    let memory := run.sharedMemory
    let octets ← readRandom memory call
    return {
      fileSystem := ← answer served (call.question? run.session memory)
      clock := ← readClock
      random := fun i => (octets.data[i]?).getD 0 }

/-! ## Output -/

/-- Shows an event; log lines below a level are not shown. -/
def display (least : LogLevel) (event : Event) : IO Unit := do
  let out ← IO.getStdout
  out.putStr event.outputText
  out.flush
  (← IO.getStderr).putStr (event.errorText least)

/-- The least level of log lines to be shown, as the environment asks for. -/
def leastLevel : IO LogLevel := do
  match ← IO.getEnv "LOG_LEVEL" with
  | some "debug" => return .debug
  | some "info" => return .info
  | some "warn" => return .warn
  | _ => return .error

/-! ## Running -/

/-- Runs on to the end. -/
partial def finish (least : LogLevel) (served : String) (progress : Progress) :
    IO (Except Failure UInt32) :=
  match progress with
  | .finished outcome _ => return outcome
  | .running run => do
    let host ← hostFor served run
    let advance := run.step host
    advance.events.forM (display least)
    finish least served advance.progress

/-- Runs a task, and answers the exit code. -/
def perform (least : LogLevel) (task : Task) : IO (Except TaskError UInt32) := do
  let begun ← IO.monoNanosNow
  let advance := Run.start task.program task.session
  advance.events.forM (display least)
  let outcome ← finish least task.settings.root advance.progress
  let elapsed := ((← IO.monoNanosNow) - begun) / 1000
  let conclusion := Task.conclude (toString elapsed) outcome
  conclusion.events.forM (display least)
  return conclusion.code

/-- Reads the files that an invocation names, and runs its task. -/
def invoke (invocation : Invocation) : IO (Except TaskError UInt32) := do
  let least ← leastLevel
  let files ← invocation.files.mapM fun path => do return (path, ← readContent path)
  let (task, events) :=
    Task.load (fun path => (files.lookup path).getD (.error .notFound)) invocation
  events.forM (display least)
  match task with
  | .error error => return .error error
  | .ok task => perform least task

end Command

end WasiHost

open WasiHost in
/-- Reads the arguments, and ends with an exit code. -/
def main (arguments : List String) : IO UInt32 := do
  match Invocation.parse arguments with
  | .error stop =>
    match stop with
    | .usage => IO.eprint ("error: the arguments are not understood\n\n" ++ usageText)
    | .help => IO.print helpText
    | .version => IO.print versionText
    return stop.code
  | .ok invocation =>
    match ← Command.invoke invocation with
    | .ok code => return code
    | .error error =>
      IO.eprintln ("Error: " ++ error.message)
      return 1
