import WasiHost.CommandLine.Invocation
import WasiHost.FileSystem.Basic
import WasiHost.Json.Options
import WasiHost.Text.Quoted
import WasiHost.Text.Utf8

/-!
# Settings

The settings of a run: an invocation with the files it names read in. Runtime options come from the
file of options, if there is one; what the command line gives is added to them or overrules them.

What the files hold is given by a function from paths, like the answers of a filesystem.
-/

namespace WasiHost

/-- What a run needs to know. -/
structure Settings where
  /-- The file that holds the program. -/
  program : String
  /-- The host directory that is served. -/
  root : String
  options : Options
  deriving DecidableEq, Inhabited

/-- Why there are no settings. -/
inductive SettingsError where
  /-- A file cannot be read. -/
  | unreadable (path : String) (error : HostError)
  /-- The file of options is no text. -/
  | notText (path : String)
  /-- The file of options does not hold options. -/
  | malformed (path : String)
  /-- An environment variable has no value. -/
  | noValue (entry : String)
  deriving DecidableEq, Inhabited

namespace SettingsError

/-- The wording of the error. -/
def message : SettingsError → String
  | unreadable path error => "Failed to read " ++ quoted path ++ ": " ++ error.message
  | notText path => "Failed to read " ++ quoted path ++ ": not well-formed text"
  | malformed path => "Failed to read " ++ quoted path ++ ": no runtime options"
  | noValue entry => "Expecting VAR=VAL for --env, but found '" ++ entry ++ "'"

end SettingsError

/-- A name with its value, divided at the first equals sign. -/
def splitVariable? (entry : String) : Option (String × String) :=
  match entry.toList.span (· ≠ '=') with
  | (name, _ :: value) => some (String.ofList name, String.ofList value)
  | (_, []) => none

namespace Settings

/-- Environment variables, each divided; the first that cannot be is the error. -/
def splitVariables : List String → Except SettingsError (List (String × String))
  | [] => .ok []
  | entry :: rest =>
    match splitVariable? entry with
    | none => .error (.noValue entry)
    | some pair => (splitVariables rest).map (pair :: ·)

/-- The options in a file of options. -/
def optionsOf (path : String) : Except HostError Bytes → Except SettingsError Options
  | .error error => .error (.unreadable path error)
  | .ok bytes =>
    match Utf8.decode? bytes with
    | none => .error (.notText path)
    | some text =>
      match Options.parse? text with
      | none => .error (.malformed path)
      | some options => .ok options

/-- Options with the octets of a file queued after their standard input. -/
def withStdin (options : Options) (path : String) :
    Except HostError Bytes → Except SettingsError Options
  | .error error => .error (.unreadable path error)
  | .ok bytes => .ok { options with stdin := options.stdin ++ bytes }

/-- Options with what the command line gives itself. -/
def overrule (options : Options) (invocation : Invocation) : Except SettingsError Options :=
  (splitVariables invocation.environment).map fun pairs =>
    { options with
      arguments := options.arguments ++ invocation.arguments
      environment := options.environment ++ pairs
      enableClock := options.enableClock && !invocation.disableClock
      enableTrace := options.enableTrace || invocation.trace }

/-- The settings of an invocation: the file of options is read first, then the one for standard
input, and what the command line gives itself comes last. -/
def load (read : String → Except HostError Bytes) (invocation : Invocation) :
    Except SettingsError Settings := do
  let options ← match invocation.config with
    | none => .ok {}
    | some path => optionsOf path (read path)
  let options ← match invocation.stdinFile with
    | none => .ok options
    | some path => withStdin options path (read path)
  let options ← overrule options invocation
  return { program := invocation.program, root := invocation.root, options := options }

end Settings

end WasiHost
