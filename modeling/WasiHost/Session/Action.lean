import WasiHost.Memory.Vectors
import WasiHost.Session.Basic

/-!
# The bodies of host calls

The body of a host call works on the session and on guest memory, lets events out on the way, and
may fail. A failure takes nothing back: what was done before it stays done, so bodies do what can
fail before what cannot be undone. -/

namespace WasiHost

/-- What the body of a host call works on. -/
structure Workspace where
  session : Session
  memory : Memory
  /-- What was let out so far, in order. -/
  events : List Event

/-- The body of a host call. -/
abbrev Action := EStateM CallError Workspace

namespace Action

/-- An access to guest memory. -/
def access {α : Type} (x : Access α) : Action α := fun w =>
  match x w.memory with
  | .ok a memory => .ok a { w with memory := memory }
  | .error error memory => .error error { w with memory := memory }

/-- An outcome that the guest is told if it is an error. -/
def lift {α : Type} (outcome : Except ErrNo α) : Action α :=
  match outcome with
  | .ok a => pure a
  | .error errno => throw (.guest errno)

/-- Fails with an error number. -/
def refuse {α : Type} (errno : ErrNo) : Action α :=
  throw (.guest errno)

/-- Something of the session. -/
def look {α : Type} (f : Session → α) : Action α := fun w =>
  .ok (f w.session) w

/-- Changes the session. -/
def change (f : Session → Session) : Action Unit := fun w =>
  .ok () { w with session := f w.session }

/-- Lets events out. -/
def emit (events : List Event) : Action Unit := fun w =>
  .ok () { w with events := w.events ++ events }

/-- The descriptor under a number. -/
def descriptor (fd : Fd) : Action Descriptor := do
  let table ← look Session.table
  lift (table.get fd)

/-- Puts a descriptor in place of the one under a number. -/
def setDescriptor (fd : Fd) (descriptor : Descriptor) : Action Unit :=
  change fun session => { session with table := session.table.set fd descriptor }

/-- Keeps a descriptor under a free number. -/
def openDescriptor (descriptor : Descriptor) : Action Fd := do
  let table ← look Session.table
  let (fd, table) ← lift (table.insert descriptor)
  change fun session => { session with table := table }
  emit [.log (DescriptorTable.allocated fd)]
  pure fd

/-- Closes a descriptor. -/
def closeDescriptor (fd : Fd) : Action Unit := do
  let table ← look Session.table
  let (table, records) ← lift (table.close fd)
  change fun session => { session with table := table }
  emit (records.map .log)

end Action

end WasiHost
