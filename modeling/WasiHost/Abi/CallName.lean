/-!
# The names of the host calls

The eighteen calls a guest can make, with the name it imports them under, their numbers and how many
integers each one takes.
-/

namespace WasiHost

/-- The host calls, in the order of their numbers. -/
inductive CallName where
  | argsGet
  | argsSizesGet
  | environGet
  | environSizesGet
  | clockResGet
  | clockTimeGet
  | fdClose
  | fdFdstatGet
  | fdFdstatSetFlags
  | fdPrestatGet
  | fdPrestatDirName
  | fdRead
  | fdSeek
  | fdWrite
  | pathFilestatGet
  | pathOpen
  | procExit
  | randomGet
  deriving DecidableEq, Inhabited

namespace CallName

/-- Every host call, in the order of the numbers. -/
def all : List CallName :=
  [argsGet, argsSizesGet, environGet, environSizesGet, clockResGet, clockTimeGet, fdClose,
    fdFdstatGet, fdFdstatSetFlags, fdPrestatGet, fdPrestatDirName, fdRead, fdSeek, fdWrite,
    pathFilestatGet, pathOpen, procExit, randomGet]

/-- The number of a host call; the first one is 1. -/
def number : CallName → Nat
  | argsGet => 1
  | argsSizesGet => 2
  | environGet => 3
  | environSizesGet => 4
  | clockResGet => 5
  | clockTimeGet => 6
  | fdClose => 7
  | fdFdstatGet => 8
  | fdFdstatSetFlags => 9
  | fdPrestatGet => 10
  | fdPrestatDirName => 11
  | fdRead => 12
  | fdSeek => 13
  | fdWrite => 14
  | pathFilestatGet => 15
  | pathOpen => 16
  | procExit => 17
  | randomGet => 18

/-- The host call with a given number. -/
def ofNumber? (n : Nat) : Option CallName :=
  all.find? fun c => c.number = n

/-- The name a guest imports a host call under. -/
def name : CallName → String
  | argsGet => "args_get"
  | argsSizesGet => "args_sizes_get"
  | environGet => "environ_get"
  | environSizesGet => "environ_sizes_get"
  | clockResGet => "clock_res_get"
  | clockTimeGet => "clock_time_get"
  | fdClose => "fd_close"
  | fdFdstatGet => "fd_fdstat_get"
  | fdFdstatSetFlags => "fd_fdstat_set_flags"
  | fdPrestatGet => "fd_prestat_get"
  | fdPrestatDirName => "fd_prestat_dir_name"
  | fdRead => "fd_read"
  | fdSeek => "fd_seek"
  | fdWrite => "fd_write"
  | pathFilestatGet => "path_filestat_get"
  | pathOpen => "path_open"
  | procExit => "proc_exit"
  | randomGet => "random_get"

/-- The host call imported under a given name. -/
def ofName? (name : String) : Option CallName :=
  all.find? fun c => c.name = name

/-- The spelling of a host call in error messages. -/
def constantName : CallName → String
  | argsGet => "ARGS_GET"
  | argsSizesGet => "ARGS_SIZES_GET"
  | environGet => "ENVIRON_GET"
  | environSizesGet => "ENVIRON_SIZES_GET"
  | clockResGet => "CLOCK_RES_GET"
  | clockTimeGet => "CLOCK_TIME_GET"
  | fdClose => "FD_CLOSE"
  | fdFdstatGet => "FD_FDSTAT_GET"
  | fdFdstatSetFlags => "FD_FDSTAT_SET_FLAGS"
  | fdPrestatGet => "FD_PRESTAT_GET"
  | fdPrestatDirName => "FD_PRESTAT_DIR_NAME"
  | fdRead => "FD_READ"
  | fdSeek => "FD_SEEK"
  | fdWrite => "FD_WRITE"
  | pathFilestatGet => "PATH_FILESTAT_GET"
  | pathOpen => "PATH_OPEN"
  | procExit => "PROC_EXIT"
  | randomGet => "RANDOM_GET"

/-- The host call with a given spelling in error messages. -/
def ofConstantName? (name : String) : Option CallName :=
  all.find? fun c => c.constantName = name

/-- How many integers a host call takes. `clockResGet` is listed with its form of one argument,
which answers the resolution itself; it also has a form of two. -/
def arity : CallName → Nat
  | fdClose | procExit | clockResGet => 1
  | argsGet | argsSizesGet | environGet | environSizesGet | fdFdstatGet | fdFdstatSetFlags
  | fdPrestatGet | randomGet => 2
  | clockTimeGet | fdPrestatDirName => 3
  | fdRead | fdSeek | fdWrite => 4
  | pathFilestatGet => 5
  | pathOpen => 9

theorem mem_all (c : CallName) : c ∈ all := by
  cases c <;> decide

end CallName

end WasiHost
