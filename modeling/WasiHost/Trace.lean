import WasiHost.Layout.Codec
import WasiHost.Log
import WasiHost.Memory.Vectors
import WasiHost.Text.Numeral

/-!
# Traces of host calls

A trace line shows a host call as a C program would be traced: the name, the arguments, and how it
ended. Arguments that the call has left in guest memory are read back from there; octet strings are
quoted with C escapes and cut.
-/

namespace WasiHost

namespace Trace

/-- The longest octet string shown of a stream. -/
def streamLimit : Nat := 32

/-- The longest octet string shown of a path. -/
def pathLimit : Nat := 1024

/-- Whether an octet is a decimal digit. -/
def isDigit (b : UInt8) : Bool :=
  48 ≤ b.toNat ∧ b.toNat ≤ 57

/-- How an octet is written in a quoted string, given the octet after it, if one is shown. A digit
after an octal escape would be read as part of it, so the escape then has all three digits. -/
def escape (b : UInt8) (after : Option UInt8) : List Char :=
  if b = 0x5c ∨ b = 0x22 then ['\\', Char.ofNat b.toNat]
  else if 0x20 ≤ b ∧ b ≤ 0x7e then [Char.ofNat b.toNat]
  else if b = 0x09 then ['\\', 't']
  else if b = 0x0a then ['\\', 'n']
  else if after.any isDigit then '\\' :: Numeral.octalFixed b
  else '\\' :: Numeral.octal b

/-- An octet string between quotes. -/
def escapeAll : Bytes → List Char
  | [] => []
  | b :: rest => escape b rest.head? ++ escapeAll rest

/-- An octet string as a trace shows it: quoted, cut at a number of octets, with dots if it was cut.
-/
def quote (bytes : Bytes) (limit : Nat) : String :=
  String.ofList ('"' :: escapeAll (bytes.take limit) ++ '"' ::
    (if limit < bytes.length then ['.', '.', '.'] else []))

/-- The octets that a stream call moved, read back from its buffers and cut at the count the call
has stored. -/
def stream (memory : Memory) (vectors count cell : UInt32) : String :=
  match memory.readU32 cell with
  | .error _ => "BAD_IOVEC_LEN"
  | .ok moved =>
    match Access.readIoVecs vectors count memory with
    | .error _ _ => "BAD_IOVEC"
    | .ok vectors _ =>
      match memory.gather vectors with
      | .error _ => "BAD_IOVEC"
      | .ok bytes => quote (bytes.take moved.toNat) streamLimit

/-- What stands for memory that cannot be read. -/
def unreadable : String := "BAD_MEM_REF"

/-- An octet string in memory. -/
def path (memory : Memory) (address length : UInt32) : String :=
  match memory.slice address length with
  | .ok bytes => quote bytes pathLimit
  | .error _ => unreadable

/-- A 32-bit word in memory. -/
def word32 (memory : Memory) (address : UInt32) : String :=
  match memory.readU32 address with
  | .ok n => toString n
  | .error _ => unreadable

/-- A 64-bit word in memory. -/
def word64 (memory : Memory) (address : UInt32) : String :=
  match memory.readU64 address with
  | .ok n => toString n
  | .error _ => unreadable

/-- A record in memory, field by field. -/
def fields (memory : Memory) (kind : RecordKind) (address : UInt32) : String :=
  match kind.layout.decode memory address with
  | .error _ => unreadable
  | .ok values =>
    let shown := (kind.layout.fields.zip values).map fun (f, v) => f.name ++ "=" ++ v.text
    kind.name ++ "\x7b" ++ String.intercalate ", " shown ++ "\x7d"

/-- What stands for an argument that a failed call has not set. -/
def unset : String := "_"

end Trace

/-- How far a trace line has come. -/
inductive TracePhase where
  /-- The name is written. -/
  | name
  /-- An argument is written. -/
  | arguments
  /-- The result is known. -/
  | result
  deriving DecidableEq, Inhabited

/-- A trace line under way. While tracing is off nothing is collected. -/
structure Trace where
  enabled : Bool
  phase : TracePhase
  line : String
  deriving DecidableEq, Inhabited

namespace Trace

/-- The line of a call that begins. -/
def start (enabled : Bool) (name : String) : Trace :=
  { enabled := enabled, phase := .name, line := if enabled then name ++ "(" else "" }

/-- Adds an argument. -/
def arg (trace : Trace) (text : String) : Trace :=
  if trace.enabled then
    match trace.phase with
    | .name => { trace with phase := .arguments, line := trace.line ++ text }
    | .arguments => { trace with line := trace.line ++ ", " ++ text }
    | .result => { trace with line := trace.line ++ " <unexpected arg> " ++ text }
  else trace

/-- How an outcome is written. -/
def outcomeText (outcome : Except CallError Unit) : String :=
  match outcome with
  | .ok () => "Success"
  | .error (.guest errno) => errno.name
  | .error (.fatal error) => "FATAL " ++ error.message

/-- Ends the line with an outcome, and says what the log is told. -/
def finish (trace : Trace) (outcome : Except CallError Unit) : Trace × List LogRecord :=
  if trace.enabled then
    let line := match trace.phase with
      | .result => trace.line ++ " <unexpected result>"
      | _ => trace.line
    ({ trace with phase := .result, line := line },
      [{ level := .info, source := .trace, text := line ++ ") = " ++ outcomeText outcome }])
  else (trace, [])

end Trace

end WasiHost
