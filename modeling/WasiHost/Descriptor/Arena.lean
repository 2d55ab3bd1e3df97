/-!
# An arena of numbered slots

Values are kept under numbers. A number that is given back is handed out again before any number
that was never used, the one given back last first: the vacant slots form a chain, each naming the
next one, that starts at `next` and ends at the number of slots.

The arena stands for the package `slab` (0.4), in which a descriptor table keeps its descriptors.
That the number given back last comes first is the behaviour of that package, which keeps its vacant
slots in such a chain; `insert` and `erase` do to the chain what inserting and removing do there. -/

namespace WasiHost

/-- A place for a value. -/
inductive Slot (α : Type) where
  | occupied (value : α)
  /-- Nothing is here; `next` is the slot to be used after this one. -/
  | vacant (next : Nat)
  deriving DecidableEq, Inhabited

/-- Values under numbers. -/
structure Arena (α : Type) where
  slots : Array (Slot α)
  /-- The number that is handed out next. -/
  next : Nat
  /-- How many slots are occupied. -/
  count : Nat
  deriving DecidableEq, Inhabited

namespace Arena

variable {α : Type}

/-- The arena with nothing in it. -/
def empty : Arena α :=
  { slots := #[], next := 0, count := 0 }

/-- The value under a number. -/
def get? (arena : Arena α) (key : Nat) : Option α :=
  match arena.slots[key]? with
  | some (.occupied value) => some value
  | _ => none

/-- Keeps a value under the number that is handed out next. -/
def insert (arena : Arena α) (value : α) : Arena α :=
  match arena.slots[arena.next]? with
  | some (.vacant next) =>
    { slots := arena.slots.setIfInBounds arena.next (.occupied value)
      next := next
      count := arena.count + 1 }
  | _ =>
    { slots := arena.slots.push (.occupied value)
      next := arena.slots.size + 1
      count := arena.count + 1 }

/-- Puts a value in place of the one under a number; without one there nothing changes. -/
def set (arena : Arena α) (key : Nat) (value : α) : Arena α :=
  match arena.get? key with
  | some _ => { arena with slots := arena.slots.setIfInBounds key (.occupied value) }
  | none => arena

/-- Gives a number back; if it is not in use nothing changes. -/
def erase (arena : Arena α) (key : Nat) : Arena α :=
  match arena.get? key with
  | some _ =>
    { slots := arena.slots.setIfInBounds key (.vacant arena.next)
      next := key
      count := arena.count - 1 }
  | none => arena

end Arena

end WasiHost
