/-!
# Invocations

What the command line asks for. Arguments are read one by one, and the first one that is out of
place ends the reading, as does a request for help or for the version.

An option with a value takes it from the same argument (`--root=x`, `-rx`, `-r=x`) or from the next
one, which must not look like an option. A lone dash does not. After `--` no more options follow,
and the command line takes nothing else. -/

namespace WasiHost

/-- An option that takes a value. -/
inductive Setting where
  /-- The file that holds the program. -/
  | program
  /-- The host directory that is served. -/
  | root
  /-- A file of runtime options. -/
  | config
  /-- A file that is queued on standard input. -/
  | stdinFile
  /-- A further argument for the program. -/
  | argument
  /-- A further environment variable for the program. -/
  | environment
  deriving DecidableEq, Inhabited

/-- An option without a value. -/
inductive Switch where
  /-- Serve no clocks. -/
  | disableClock
  /-- Trace the host calls. -/
  | trace
  deriving DecidableEq, Inhabited

/-- What an option stands for. -/
inductive CommandOption where
  | setting (setting : Setting)
  | switch (switch : Switch)
  | help
  | version
  deriving DecidableEq, Inhabited

namespace CommandOption

/-- The options by their long names. -/
def longNames : List (String × CommandOption) :=
  [("program", setting .program), ("root", setting .root), ("config", setting .config),
    ("stdin-file", setting .stdinFile), ("arg", setting .argument), ("env", setting .environment),
    ("disable-clock", switch .disableClock), ("strace", switch .trace), ("help", help),
    ("version", version)]

/-- The options by their short names. -/
def shortNames : List (Char × CommandOption) :=
  [('p', setting .program), ('r', setting .root), ('h', help), ('V', version)]

/-- The option of a given long name. -/
def ofLongName? (name : String) : Option CommandOption :=
  longNames.lookup name

/-- The option of a given short name. -/
def ofShortName? (name : Char) : Option CommandOption :=
  shortNames.lookup name

end CommandOption

namespace Setting

/-- Whether an option may be given more than once. -/
def isRepeatable : Setting → Bool
  | argument | environment => true
  | program | root | config | stdinFile => false

end Setting

/-- Why nothing is run. -/
inductive EarlyExit where
  /-- The arguments are not understood. -/
  | usage
  /-- Help was asked for. -/
  | help
  /-- The version was asked for. -/
  | version
  deriving DecidableEq, Inhabited

namespace EarlyExit

/-- The exit code of the command line. -/
def code : EarlyExit → UInt32
  | usage => 2
  | help | version => 0

end EarlyExit

/-- The options that have been given, in order. -/
structure GivenOptions where
  settings : List (Setting × String) := []
  switches : List Switch := []
  deriving DecidableEq, Inhabited

namespace GivenOptions

/-- The values that were given for an option. -/
def values (given : GivenOptions) (setting : Setting) : List String :=
  given.settings.filterMap fun (s, value) => if s = setting then some value else none

/-- Whether an option without a value was given. -/
def has (given : GivenOptions) (switch : Switch) : Bool :=
  switch ∈ given.switches

/-- Adds an option with its value. -/
def set (given : GivenOptions) (setting : Setting) (value : String) :
    Except EarlyExit GivenOptions :=
  if setting.isRepeatable ∨ given.values setting = [] then
    .ok { given with settings := given.settings ++ [(setting, value)] }
  else .error .usage

/-- Adds an option without a value. -/
def turnOn (given : GivenOptions) (switch : Switch) : Except EarlyExit GivenOptions :=
  if given.has switch then .error .usage
  else .ok { given with switches := given.switches ++ [switch] }

/-- What has been read of the command line between two arguments: the options so far, and the one
whose value has to come next. -/
abbrev Reading := GivenOptions × Option Setting

/-- Reads an option with a long name, which may have its value with it. -/
def readLong (given : GivenOptions) (name : String) (value : Option String) :
    Except EarlyExit Reading :=
  match CommandOption.ofLongName? name, value with
  | some (.setting setting), some value => (given.set setting value).map (·, none)
  | some (.setting setting), none => .ok (given, some setting)
  | some (.switch switch), none => (given.turnOn switch).map (·, none)
  | some .help, none => .error .help
  | some .version, none => .error .version
  | _, _ => .error .usage

/-- Reads options with short names, one letter each. The first one that takes a value takes what is
left. -/
def readShort (given : GivenOptions) : List Char → Except EarlyExit Reading
  | [] => .ok (given, none)
  | letter :: rest =>
    match CommandOption.ofShortName? letter with
    | some (.setting setting) =>
      match rest with
      | [] => .ok (given, some setting)
      | '=' :: value => (given.set setting (String.ofList value)).map (·, none)
      | value => (given.set setting (String.ofList value)).map (·, none)
    | some (.switch switch) =>
      match given.turnOn switch with
      | .ok given => readShort given rest
      | .error stop => .error stop
    | some .help => .error .help
    | some .version => .error .version
    | none => .error .usage

/-- The name of a long option and the value after the first equals sign, if there is one. -/
def splitValue (option : List Char) : String × Option String :=
  let (name, rest) := option.span (· ≠ '=')
  (String.ofList name, rest.tail?.map String.ofList)

/-- Reads an argument that has to be an option. -/
def readOption (given : GivenOptions) (argument : List Char) : Except EarlyExit Reading :=
  match argument with
  | '-' :: '-' :: option =>
    let (name, value) := splitValue option
    given.readLong name value
  | '-' :: letter :: letters => given.readShort (letter :: letters)
  | _ => .error .usage

/-- Whether an argument looks like an option, so that it is no value. -/
def looksLikeOption : List Char → Bool
  | '-' :: _ :: _ => true
  | _ => false

/-- Reads arguments in order. -/
def readAll : Reading → List String → Except EarlyExit GivenOptions
  | (given, none), [] => .ok given
  | (_, some _), [] => .error .usage
  | (given, some setting), argument :: rest =>
    if looksLikeOption argument.toList then .error .usage
    else
      match given.set setting argument with
      | .ok given => readAll (given, none) rest
      | .error stop => .error stop
  | (given, none), argument :: rest =>
    if argument = "--" then
      if rest = [] then .ok given else .error .usage
    else
      match given.readOption argument.toList with
      | .ok reading => readAll reading rest
      | .error stop => .error stop

end GivenOptions

/-- What the command line asks for. -/
structure Invocation where
  /-- The file that holds the program. -/
  program : String
  /-- The host directory that is served. -/
  root : String
  /-- The file of runtime options. -/
  config : Option String
  /-- The file that is queued on standard input. -/
  stdinFile : Option String
  /-- Further arguments for the program. -/
  arguments : List String
  /-- Further environment variables, as they were given. -/
  environment : List String
  disableClock : Bool
  trace : Bool
  deriving DecidableEq, Inhabited

namespace Invocation

/-- The host directory that is served if none is given. -/
def defaultRoot : String := "."

/-- The files that an invocation names. -/
def files (invocation : Invocation) : List String :=
  invocation.program :: invocation.config.toList ++ invocation.stdinFile.toList

/-- The invocation with given options, which must name a program. -/
def ofGiven? (given : GivenOptions) : Option Invocation :=
  match given.values .program with
  | [] => none
  | program :: _ =>
    some
      { program := program
        root := (given.values .root).head?.getD defaultRoot
        config := (given.values .config).head?
        stdinFile := (given.values .stdinFile).head?
        arguments := given.values .argument
        environment := given.values .environment
        disableClock := given.has .disableClock
        trace := given.has .trace }

/-- Reads the arguments of the command line. -/
def parse (arguments : List String) : Except EarlyExit Invocation :=
  match GivenOptions.readAll ({}, none) arguments with
  | .error stop => .error stop
  | .ok given =>
    match ofGiven? given with
    | some invocation => .ok invocation
    | none => .error .usage

end Invocation

end WasiHost
