import WasiHost.Abi.FileType
import WasiHost.Session.Action

/-!
# Clocks

Only the realtime clock is served, and only if the options allow it.
-/

namespace WasiHost

/-- The resolution of the realtime clock, in nanoseconds. -/
def clockResolution : UInt64 := 1000000000

/-- A time rounded down to a multiple of a precision; a precision of zero leaves it as it is. -/
def roundDown (now precision : UInt64) : UInt64 :=
  if 1 < precision then now - now % precision else now

namespace Session

/-- Whether a clock is served. -/
def checkClock (session : Session) (clock : UInt32) : Except ErrNo Unit :=
  if session.options.enableClock then
    if ClockId.ofNumber? clock.toNat = some .realTime then .ok () else .error .inval
  else .error .access

end Session

namespace Action

/-- Refuses a clock that is not served. -/
def checkClock (clock : UInt32) : Action Unit := do
  let outcome ← look fun session => session.checkClock clock
  lift outcome

/-- Stores the resolution of a clock. -/
def clockResGet (clock address : UInt32) : Action Unit := do
  checkClock clock
  access (Access.writeU64 address clockResolution)

/-- Stores the time of a clock. -/
def clockTimeGet (host : Host) (clock : UInt32) (precision : UInt64) (address : UInt32) :
    Action Unit := do
  checkClock clock
  let now ← lift host.clock
  access (Access.writeU64 address (roundDown now precision))

end Action

end WasiHost
