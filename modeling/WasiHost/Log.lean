/-!
# What a session lets out

Everything a run shows to the outside, in the order it happens: texts for the guest's two output
streams, and log records.
-/

namespace WasiHost

/-- How important a log record is. -/
inductive LogLevel where
  | debug
  | info
  | warn
  | error
  deriving DecidableEq, Inhabited

namespace LogLevel

/-- The name of a level. -/
def name : LogLevel → String
  | debug => "DEBUG"
  | info => "INFO"
  | warn => "WARN"
  | error => "ERROR"

/-- Levels in order of importance. -/
def rank : LogLevel → Nat
  | debug => 0
  | info => 1
  | warn => 2
  | error => 3

end LogLevel

/-- Which part of the system a log record comes from. -/
inductive LogSource where
  /-- The descriptor table. -/
  | table
  /-- The host calls. -/
  | calls
  /-- The trace of the host calls. -/
  | trace
  /-- The engine that runs programs. -/
  | engine
  /-- The command line. -/
  | program
  deriving DecidableEq, Inhabited

namespace LogSource

/-- The target that log records of a source are shown under. -/
def target : LogSource → String
  | table => "wasi_shim::fd_table"
  | calls => "wasi_shim::engines::common"
  | trace => "strace"
  | engine => "wasi_shim::engines::wasmtime"
  | program => "freestanding_wasi_shim"

end LogSource

/-- A line of the log. -/
structure LogRecord where
  level : LogLevel
  source : LogSource
  text : String
  deriving DecidableEq, Inhabited

/-- Something a run shows to the outside. -/
inductive Event where
  /-- A text for the guest's standard output. -/
  | stdout (text : String)
  /-- A text for the guest's standard error. -/
  | stderr (text : String)
  /-- A line of the log. -/
  | log (record : LogRecord)
  deriving DecidableEq, Inhabited

namespace Event

/-- The texts for the guest's standard output. -/
def stdoutTexts (events : List Event) : List String :=
  events.filterMap fun
    | stdout text => some text
    | _ => none

/-- The texts for the guest's standard error. -/
def stderrTexts (events : List Event) : List String :=
  events.filterMap fun
    | stderr text => some text
    | _ => none

/-- The lines of the log. -/
def records (events : List Event) : List LogRecord :=
  events.filterMap fun
    | log record => some record
    | _ => none

/-- A log line of the engine. -/
def engineInfo (text : String) : Event :=
  log { level := .info, source := .engine, text := text }

/-- A log line of the command line. -/
def programInfo (text : String) : Event :=
  log { level := .info, source := .program, text := text }

end Event

end WasiHost
