import WasiHost.Session.Action

/-!
# Command line and environment

A program fetches its command line and its environment in two calls each: one for the number of
strings and their length together, one for the strings. Each string ends with a zero octet, which is
counted.
-/

namespace WasiHost

namespace Options

/-- The strings of the command line as the guest sees them. -/
def argumentStrings (options : Options) : List Bytes :=
  options.arguments.map fun argument => utf8 argument ++ [0]

/-- The strings of the environment as the guest sees them. -/
def environmentStrings (options : Options) : List Bytes :=
  options.environment.map fun (key, value) => utf8 key ++ utf8 "=" ++ utf8 value ++ [0]

/-- How long the strings of the command line are together. -/
def argumentsSize (options : Options) : Nat :=
  options.arguments.foldl (fun total argument => total + (utf8 argument).length + 1) 0

/-- How long the strings of the environment are together. -/
def environmentSize (options : Options) : Nat :=
  options.environment.foldl
    (fun total (key, value) => total + (utf8 key).length + (utf8 value).length + 2) 0

end Options

namespace Action

/-- The word that a number fits in. -/
def word (n : Nat) : Action UInt32 :=
  if n < UInt32.size then pure (UInt32.ofNat n) else refuse .inval

/-- The 16-bit word that a wider one fits in. -/
def halfWord (n : UInt32) : Action UInt16 :=
  if n.toNat < UInt16.size then pure n.toUInt16 else refuse .inval

/-- Stores a number of strings and their length together. -/
def storeSizes (count size : Nat) (countAddress sizeAddress : UInt32) : Action Unit := do
  let count ← word count
  access (Access.writeU32 countAddress count)
  let size ← word size
  access (Access.writeU32 sizeAddress size)

/-- Stores the command line. -/
def argsGet (pointers strings : UInt32) : Action Unit := do
  let options ← look Session.options
  access (Access.writeStrings options.argumentStrings strings pointers)

/-- Stores how large the command line is. -/
def argsSizesGet (count size : UInt32) : Action Unit := do
  let options ← look Session.options
  storeSizes options.arguments.length options.argumentsSize count size

/-- Stores the environment. -/
def environGet (pointers strings : UInt32) : Action Unit := do
  let options ← look Session.options
  access (Access.writeStrings options.environmentStrings strings pointers)

/-- Stores how large the environment is. -/
def environSizesGet (count size : UInt32) : Action Unit := do
  let options ← look Session.options
  storeSizes options.environment.length options.environmentSize count size

end Action

end WasiHost
