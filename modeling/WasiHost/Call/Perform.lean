import WasiHost.Call.Basic
import WasiHost.Call.Clock
import WasiHost.Call.Open
import WasiHost.Call.Process
import WasiHost.Call.Stream
import WasiHost.Trace

/-!
# Performing host calls

A host call runs its body, leaves a trace line if tracing is on, and answers a word. A body that
fails with an error number is logged and answered with the number of `badF`, whatever the error;
only the clock calls answer the error itself. A fatal failure has no answer.

Tracing happens after the body and only reads, so it changes nothing but the log.
-/

namespace WasiHost

namespace Call

/-- What a host call does. -/
def body (host : Host) : Call → Action Unit
  | argsGet pointers strings => Action.argsGet pointers strings
  | argsSizesGet count size => Action.argsSizesGet count size
  | environGet pointers strings => Action.environGet pointers strings
  | environSizesGet count size => Action.environSizesGet count size
  | clockResolution clock => Action.checkClock clock
  | clockResGet clock address => Action.clockResGet clock address
  | clockTimeGet clock precision address => Action.clockTimeGet host clock precision address
  | fdClose fd => Action.closeDescriptor fd
  | fdFdstatGet fd address => Action.fdFdstatGet host fd address
  | fdFdstatSetFlags fd flags => Action.fdFdstatSetFlags fd flags
  | fdPrestatGet fd address => Action.fdPrestatGet fd address
  | fdPrestatDirName fd address size => Action.fdPrestatDirName fd address size
  | fdRead fd buffers count address => Action.fdRead host fd buffers count address
  | fdSeek fd _ _ address => Action.fdSeek fd address
  | fdWrite fd buffers count address => Action.fdWrite fd buffers count address
  | pathFilestatGet fd _ path pathLength address =>
    Action.pathFilestatGet host fd path pathLength address
  | pathOpen fd _ path pathLength openFlags rightsBase rightsInheriting fdFlags address =>
    Action.pathOpen host fd path pathLength openFlags rightsBase rightsInheriting fdFlags address
  | procExit code => Action.procExit code
  | randomGet address length => Action.randomGet host address length

/-- The arguments that a trace shows, after the body has run on the given memory; `succeeded` says
how it ended. -/
def shownArguments (memory : Memory) (succeeded : Bool) : Call → List String
  | argsGet _ _ | environGet _ _ => ["..."]
  | argsSizesGet count size | environSizesGet count size =>
    [Trace.word32 memory count, Trace.word32 memory size]
  | clockResolution clock => [toString clock]
  | clockResGet clock address => [toString clock, Trace.word64 memory address]
  | clockTimeGet clock precision address =>
    [toString clock, toString precision, Trace.word64 memory address]
  | fdClose fd => [toString fd]
  | fdFdstatGet fd address => [toString fd, shownRecord .fdstat address]
  | fdFdstatSetFlags fd flags => [toString fd, Numeral.hex flags.toNat]
  | fdPrestatGet fd address => [toString fd, shownRecord .prestat address]
  | fdPrestatDirName fd address size =>
    [toString fd, Trace.path memory address size, toString size]
  | fdRead fd buffers count address | fdWrite fd buffers count address =>
    [toString fd, if succeeded then Trace.stream memory buffers count address else Trace.unset,
      Trace.word32 memory address]
  | fdSeek fd offset whence address =>
    [toString fd, toString offset.toInt, toString whence, Trace.word64 memory address]
  | pathFilestatGet fd flags path pathLength address =>
    [toString fd, Numeral.hex flags.toNat, Trace.path memory path pathLength,
      shownRecord .filestat address]
  | pathOpen fd dirFlags path pathLength openFlags rightsBase rightsInheriting fdFlags address =>
    [toString fd, Numeral.hex dirFlags.toNat, Trace.path memory path pathLength,
      Numeral.hex openFlags.toNat, Numeral.hex rightsBase.toNat,
      Numeral.hex rightsInheriting.toNat, Numeral.hex fdFlags.toNat,
      if succeeded then Trace.word32 memory address else Trace.unset]
  | procExit code => [toString code]
  | randomGet address length => [Numeral.hex address.toNat, toString length]
where
  /-- A record that the call has stored. -/
  shownRecord (kind : RecordKind) (address : UInt32) : String :=
    if succeeded then Trace.fields memory kind address else Trace.unset

/-- The trace line of a call whose body has run on the given memory. -/
def trace (call : Call) (enabled : Bool) (memory : Memory) (outcome : Except CallError Unit) :
    List LogRecord :=
  let start := Trace.start enabled call.name.name
  let shown := (call.shownArguments memory outcome.toBool).foldl Trace.arg start
  (shown.finish outcome).2

/-- The log line of a call whose body has failed. -/
def complaint (call : Call) (error : CallError) : LogRecord :=
  match error with
  | .guest errno =>
    { level := .warn
      source := .calls
      text := call.name.name ++ " failed with " ++ errno.name }
  | .fatal error =>
    { level := .error
      source := .calls
      text := call.name.name ++ " failed fatally: " ++ error.message }

/-- The answer of a call whose body has succeeded. -/
def successAnswer : Call → UInt64
  | clockResolution _ => WasiHost.clockResolution
  | _ => 0

/-- The answer of a call whose body has failed with an error number. -/
def failureAnswer (errno : ErrNo) : Call → UInt64
  | clockResolution _ | clockResGet _ _ | clockTimeGet _ _ _ => errno.code.toUInt64
  | _ => ErrNo.badF.code.toUInt64

end Call

/-- What comes of a host call. -/
structure Reply where
  /-- The word the guest is answered, or the failure that ends the run. -/
  answer : Except FatalError UInt64
  session : Session
  memory : Memory
  /-- What was let out, in order. -/
  events : List Event

namespace Call

/-- The reply to a call whose body has ended. -/
def reply (call : Call) (enabled : Bool) : EStateM.Result CallError Workspace Unit → Reply
  | .ok () w =>
    { answer := .ok call.successAnswer
      session := w.session
      memory := w.memory
      events := w.events ++ (call.trace enabled w.memory (.ok ())).map .log }
  | .error error w =>
    { answer := match error with
        | .guest errno => .ok (call.failureAnswer errno)
        | .fatal error => .error error
      session := w.session
      memory := w.memory
      events := w.events ++ (call.trace enabled w.memory (.error error)).map .log ++
        [.log (call.complaint error)] }

/-- Performs a host call. -/
def perform (host : Host) (call : Call) (session : Session) (memory : Memory) : Reply :=
  call.reply session.options.enableTrace
    (call.body host { session := session, memory := memory, events := [] })

/-- Performs the host call of a given name with raw integers. A call that cannot be read changes
nothing. -/
def dispatch (host : Host) (name : String) (words : List UInt64) (session : Session)
    (memory : Memory) : Reply :=
  let refused (error : FatalError) : Reply :=
    { answer := .error error, session := session, memory := memory, events := [] }
  match CallName.ofName? name with
  | none => refused (.unknownCall name)
  | some callName =>
    match ofWords? callName words with
    | none => refused (.badArguments callName)
    | some call => call.perform host session memory

end Call

end WasiHost
