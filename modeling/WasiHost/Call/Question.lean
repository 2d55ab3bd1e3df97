import WasiHost.Call.Attributes
import WasiHost.Call.Basic

/-!
# What a call asks the filesystem

A call asks at most one question about at most one path. Knowing the question beforehand, a host
with a real filesystem can look for the answer before the call is performed. -/

namespace WasiHost

/-- A question for a filesystem. -/
inductive Question where
  /-- The attributes of a path. -/
  | attributes (path : String)
  /-- The content of the file at a path. -/
  | content (path : String)
  deriving DecidableEq, Inhabited

namespace Call

/-- The absolute path that a path in guest memory names below a directory, if it names one. -/
def namedPath? (session : Session) (memory : Memory) (fd : Fd) (path pathLength : UInt32) :
    Option String :=
  match Access.readText path pathLength memory with
  | .ok path _ => (session.resolve fd path).toOption
  | .error _ _ => none

/-- The question that a call asks, if it asks one. -/
def question? (session : Session) (memory : Memory) : Call → Option Question
  | fdFdstatGet fd _ =>
    match session.table.get fd with
    | .ok (.file path _ _ _) | .ok (.directory path _) => some (.attributes path)
    | _ => none
  | fdRead fd _ _ _ =>
    match session.table.get fd with
    | .ok (.file path _ none _) => some (.content path)
    | _ => none
  | pathFilestatGet fd _ path pathLength _ | pathOpen fd _ path pathLength _ _ _ _ _ =>
    (namedPath? session memory fd path pathLength).map .attributes
  | _ => none

end Call

end WasiHost
