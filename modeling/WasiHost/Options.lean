import WasiHost.Abi.LittleEndian

/-!
# Runtime options

What a program is given from outside besides its filesystem.
-/

namespace WasiHost

/-- The options of a session. -/
structure Options where
  /-- The environment variables, names with values. -/
  environment : List (String × String) := []
  /-- The command line of the program. -/
  arguments : List String := []
  /-- Whether clocks are served; if not, clock calls are refused and times of files read as zero. -/
  enableClock : Bool := true
  /-- Whether host calls are traced. -/
  enableTrace : Bool := false
  /-- What is queued on standard input at first. -/
  stdin : Bytes := []
  deriving DecidableEq, Inhabited

end WasiHost
