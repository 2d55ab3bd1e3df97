import WasiHost.Json.Basic
import WasiHost.Options

/-!
# Options as JSON

Options are an object of five members. A member that is left out takes its default, so the empty
object is the default options; members of other names are passed over, and a name that occurs twice
is an error. The five values may also be given as a list, which may stop early.
-/

namespace WasiHost

namespace Options

/-- The name of the member for the environment variables. -/
def environmentMember : String := "environment_variables"
/-- The name of the member for the command line. -/
def argumentsMember : String := "program_arguments"
/-- The name of the member that says whether clocks are served. -/
def clockMember : String := "enable_clock"
/-- The name of the member that says whether calls are traced. -/
def traceMember : String := "enable_strace"
/-- The name of the member for standard input. -/
def stdinMember : String := "stdin"

/-- The members of the JSON form of options. -/
def members (options : Options) : List (String × Json) :=
  [(environmentMember,
      .array (options.environment.map fun (key, value) => .array [.text key, .text value])),
    (argumentsMember, .array (options.arguments.map .text)),
    (clockMember, .bool options.enableClock),
    (traceMember, .bool options.enableTrace),
    (stdinMember, .array (options.stdin.map fun b => .integer b.toNat))]

/-- The JSON form of options. -/
def toJson (options : Options) : Json :=
  .record options.members

/-- Reads environment variables. -/
def readEnvironment? (json : Json) : Option (List (String × String)) :=
  json.asList? fun pair => pair.asPair? Json.asText? Json.asText?

/-- Reads a command line. -/
def readArguments? (json : Json) : Option (List String) :=
  json.asList? Json.asText?

/-- Reads an octet. -/
def readOctet? (json : Json) : Option UInt8 :=
  match json with
  | .integer n => if 0 ≤ n ∧ n < 256 then some (UInt8.ofNat n.toNat) else none
  | _ => none

/-- Reads an octet string. -/
def readBytes? (json : Json) : Option Bytes :=
  json.asList? readOctet?

/-- What a function reads from a value, or the default if there is none. -/
def readOr {α : Type} (default : α) (read : Json → Option α) : Option Json → Option α
  | none => some default
  | some json => read json

/-- Options from the five values, each of which may be absent. -/
def ofParts? (environment arguments clock trace stdin : Option Json) : Option Options := do
  let default : Options := {}
  let environment ← readOr default.environment readEnvironment? environment
  let arguments ← readOr default.arguments readArguments? arguments
  let enableClock ← readOr default.enableClock Json.asBool? clock
  let enableTrace ← readOr default.enableTrace Json.asBool? trace
  let stdin ← readOr default.stdin readBytes? stdin
  return { environment, arguments, enableClock, enableTrace, stdin }

/-- Reads the JSON form of options. -/
def ofJson? : Json → Option Options
  | .object members => do
    let members ← Json.members? members
    ofParts? (← Json.member? members environmentMember) (← Json.member? members argumentsMember)
      (← Json.member? members clockMember) (← Json.member? members traceMember)
      (← Json.member? members stdinMember)
  | .array items =>
    if items.length ≤ 5 then ofParts? items[0]? items[1]? items[2]? items[3]? items[4]?
    else none
  | _ => none

/-- Reads options from JSON text. -/
def parse? (text : String) : Option Options :=
  (Json.parse? text).bind ofJson?

end Options

end WasiHost
