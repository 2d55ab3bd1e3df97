import WasiHost.Log
import WasiHost.Text.Alignment

/-!
# What a terminal shows

The texts that events write to standard output and standard error. Log lines share standard error
with the guest and stand where they happen. -/

namespace WasiHost

namespace LogRecord

/-- The width of the longest name of a level. -/
def levelWidth : Nat := 5

/-- How far the further lines of a text are indented. -/
def indent : Nat := 4

/-- A log record as a line. -/
def line (record : LogRecord) : String :=
  "[" ++ Alignment.left levelWidth record.level.name ++ " " ++ record.source.target ++ "] " ++
    Alignment.hanging indent record.text ++ "\n"

end LogRecord

namespace Event

/-- What an event writes to standard output. -/
def outputText : Event → String
  | stdout text => text
  | stderr _ | log _ => ""

/-- What an event writes to standard error, if records below a level are not shown. -/
def errorText (least : LogLevel) : Event → String
  | stdout _ => ""
  | stderr text => text
  | log record => if least.rank ≤ record.level.rank then record.line else ""

end Event

end WasiHost
