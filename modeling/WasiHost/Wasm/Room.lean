import WasiHost.Wasm.Module

/-!
# Room on the stack

A function that waits for another leaves a frame on the stack: where to go back to, and the values
that it needs later and that cannot be made anew. So how deep functions can call one another depends
on what they need after their calls.

`Code.points` goes through code from its end and says what is needed at each point. `Code.survey`
goes through it from its beginning, knows where the values there come from, and counts those that
are kept during a call. `roomOf` is the room of a frame with so many values. -/

namespace WasiHost

namespace Wasm

/-- What code needs to know about the functions it calls. -/
structure Callees where
  /-- The signatures of all functions, by index. -/
  signatures : Array Signature
  /-- How many of them are imports; these come first. -/
  imports : Nat

/-- How many arguments a function takes. -/
def Callees.arguments (callees : Callees) (index : Nat) : Nat :=
  ((callees.signatures[index]?).map fun s => s.params.length).getD 0

/-- How many results a function has. -/
def Callees.results (callees : Callees) (index : Nat) : Nat :=
  ((callees.signatures[index]?).map fun s => s.results.length).getD 0

/-! ## What is needed -/

/-- What code needs of what is there before it. -/
structure Needs where
  /-- The locals that are read before they are set. -/
  locals : List Nat := []
  /-- The locals that may be set. -/
  sets : List Nat := []
  /-- Which operands matter, the top first. Those that are not listed do. -/
  operands : List Bool := []
  /-- Whether a function is called, or the size of the memory asked for. -/
  context : Bool := false
  /-- Whether the memory is accessed. -/
  memory : Bool := false
  /-- The imported functions that are called. -/
  imports : List Nat := []
  deriving Inhabited

namespace Needs

/-- Whether the operand on the top matters. -/
def matters (needs : Needs) : Bool :=
  needs.operands.headD true

/-- What is needed before operands are put on the stack. -/
def beforePush (needs : Needs) (count : Nat) : Needs :=
  { needs with operands := needs.operands.drop count }

/-- What is needed before operands are taken from the stack, given which of them matter. -/
def beforePop (needs : Needs) (matter : List Bool) : Needs :=
  { needs with operands := matter ++ needs.operands }

/-- What is needed before a local is read. -/
def beforeRead (needs : Needs) (index : Nat) : Needs :=
  { needs with locals := needs.locals.insert index }

/-- What is needed before a local is set. -/
def beforeSet (needs : Needs) (index : Nat) : Needs :=
  { needs with locals := needs.locals.erase index, sets := needs.sets.insert index }

/-- What is needed before a choice between two ways. -/
def either (a b : Needs) : Needs :=
  { locals := b.locals.foldr List.insert a.locals
    sets := b.sets.foldr List.insert a.sets
    operands := a.operands
    context := a.context || b.context
    memory := a.memory || b.memory
    imports := b.imports.foldr List.insert a.imports }

/-- What is needed before a branch to a label: what the code there needs. How many operands are
dropped on the way is not known. -/
def ofLabel (labels : List Needs) (label : Nat) : Needs :=
  { labels.getD label {} with operands := [] }

/-- What is needed before a call. -/
def beforeCall (callees : Callees) (index : Nat) (needs : Needs) : Needs :=
  let needs := (needs.beforePush (callees.results index)).beforePop
    (List.replicate (callees.arguments index) true)
  { needs with
    context := true
    imports := if index < callees.imports then needs.imports.insert index else needs.imports }

/-- What is needed before the memory is accessed with a number of operands. -/
def beforeAccess (needs : Needs) (operands : Nat) : Needs :=
  { needs.beforePop (List.replicate operands true) with memory := true }

end Needs

mutual

/-- What is needed before an instruction, given what is needed after it and what the code needs that
each label leads to. Operands matter unless what is made of them does not. -/
def Instr.needs (callees : Callees) (labels : List Needs) (after : Needs) : Instr → Needs
  | .unreachable => {}
  | .block body => (Code.points callees (after :: labels) after body).1
  | .loop body => (Code.points callees ({} :: labels) after body).1
  | .cond body =>
    ((Code.points callees (after :: labels) after body).1.either after).beforePop [true]
  | .br label => .ofLabel labels label
  | .brIf label => (after.either (.ofLabel labels label)).beforePop [true]
  | .call function => after.beforeCall callees function
  | .drop => after.beforePop [false]
  | .localGet index =>
    if after.matters then (after.beforePush 1).beforeRead index else after.beforePush 1
  | .localSet index => (after.beforeSet index).beforePop [after.locals.contains index]
  | .localTee index =>
    ((after.beforePush 1).beforeSet index).beforePop
      [after.matters || after.locals.contains index]
  | .load32 _ => (after.beforePush 1).beforeAccess 1
  | .store32 _ | .store8 _ => after.beforeAccess 2
  | .memorySize => { after.beforePush 1 with context := true }
  | .memoryGrow => { (after.beforePush 1).beforePop [true] with context := true }
  | .const32 _ | .const64 _ => after.beforePush 1
  | .eqz32 => after
  | .add32 => (after.beforePush 1).beforePop [after.matters, after.matters]
  | .divU32 => (after.beforePush 1).beforePop [true, true]

/-- What is needed before code, and after each of its instructions. -/
def Code.points (callees : Callees) (labels : List Needs) (after : Needs) :
    List (Nat × Instr) → Needs × List Needs
  | [] => (after, [])
  | entry :: rest =>
    let (next, later) := Code.points callees labels after rest
    (Entry.needs callees labels next entry, next :: later)

/-- What is needed before an instruction that has a place. -/
def Entry.needs (callees : Callees) (labels : List Needs) (after : Needs) : Nat × Instr → Needs
  | (_, instr) => Instr.needs callees labels after instr

end

/-! ## Where values come from -/

/-- A value that is not made anew. -/
inductive Source where
  | argument (index : Nat)
  /-- A result of the instruction at a place; of a block, what it may have put into a local. -/
  | made (place index : Nat)
  deriving DecidableEq, Inhabited

/-- What is known at a point of a function. Sums and comparisons are made where they are needed, and
constants anywhere, so a value stands for the sources that it is made from. -/
structure Survey where
  locals : Array (List Source)
  operands : List (List Source)
  /-- Whether the memory has been accessed, so that where it begins is at hand. -/
  based : Bool
  /-- The imported functions that have been called and are at hand. -/
  linked : List Nat
  /-- The most values that have been kept during a call. -/
  kept : Nat
  deriving Inhabited

namespace Survey

/-- What is known after operands are replaced. -/
def replace (s : Survey) (count : Nat) (results : List (List Source)) : Survey :=
  { s with operands := results ++ s.operands.drop count }

/-- Counts what is kept during a call that is about to put `results` operands on the stack. A
function keeps what it needs of its own values, of its context, and of what is at hand; an imported
function takes two values to call. -/
def keep (s : Survey) (results : Nat) (after : Needs) : Survey :=
  let operands := ((after.operands.drop results).zip s.operands).flatMap fun (matters, sources) =>
    if matters then sources else []
  let locals := after.locals.flatMap fun index => (s.locals[index]?).getD []
  let context := if after.context || (after.memory && !s.based) then 1 else 0
  let base := if after.memory && s.based then 1 else 0
  let imports := 2 * after.imports.countP fun index => s.linked.contains index
  { s with
    kept := max s.kept ((operands ++ locals).eraseDups.length + context + base + imports) }

/-- What is known where the ways through the block at a place meet: the locals that it may have set
hold values of their own. -/
def join (s : Survey) (place : Nat) (sets : List Nat) : Survey :=
  { s with
    locals := sets.foldl (fun locals index => locals.setIfInBounds index [.made place index])
      s.locals }

/-- What is known after a block, given what is known at the end of its body. -/
def leave (s inner : Survey) (place : Nat) (sets : List Nat) : Survey :=
  { s.join place sets with kept := inner.kept }

end Survey

/-- The locals that code may set. -/
def Code.sets (callees : Callees) (code : Code) : List Nat :=
  (Code.points callees [] {} code).1.sets

mutual

/-- What is known after the instruction at a place, given what is known before it and needed after
it. -/
def Instr.survey (callees : Callees) (labels : List Needs) (place : Nat) (after : Needs)
    (s : Survey) : Instr → Survey
  | .block body =>
    let labels := after :: labels
    let later := (Code.points callees labels after body).2
    s.leave (Code.survey callees labels later s body) place (Code.sets callees body)
  | .cond body =>
    let s := s.replace 1 []
    let labels := after :: labels
    let later := (Code.points callees labels after body).2
    s.leave (Code.survey callees labels later s body) place (Code.sets callees body)
  | .loop body =>
    let start := (Code.points callees ({} :: labels) after body).1
    let sets := Code.sets callees body
    let s := { s.join place sets with based := s.based || start.memory }
    let labels := start :: labels
    let later := (Code.points callees labels after body).2
    s.leave (Code.survey callees labels later s body) place sets
  | .call function =>
    let results := callees.results function
    let s := s.replace (callees.arguments function) []
    let s := if function < callees.imports then { s with linked := s.linked.insert function } else s
    (s.keep results after).replace 0 ((List.range results).map fun index => [.made place index])
  | .memoryGrow => ((s.replace 1 []).keep 1 after).replace 0 [[.made place 0]]
  | .memorySize => s.replace 0 [[.made place 0]]
  | .drop | .brIf _ => s.replace 1 []
  | .localGet index => s.replace 0 [(s.locals[index]?).getD []]
  | .localSet index =>
    { s.replace 1 [] with locals := s.locals.setIfInBounds index (s.operands.headD []) }
  | .localTee index =>
    { s with locals := s.locals.setIfInBounds index (s.operands.headD []) }
  | .load32 _ => { s.replace 1 [[.made place 0]] with based := true }
  | .store32 _ | .store8 _ => { s.replace 2 [] with based := true }
  | .const32 _ | .const64 _ => s.replace 0 [[]]
  | .add32 => s.replace 2 [(s.operands.headD []).foldr List.insert (s.operands.tail.headD [])]
  | .divU32 => s.replace 2 [[.made place 0]]
  | .eqz32 | .br _ | .unreachable => s

/-- What is known after code, given what is known before it and needed after each of its
instructions. Code after a branch or a trap is never run. -/
def Code.survey (callees : Callees) (labels : List Needs) (later : List Needs) (s : Survey) :
    List (Nat × Instr) → Survey
  | [] => s
  | (_, .br _) :: _ | (_, .unreachable) :: _ => s
  | entry :: rest =>
    Code.survey callees labels later.tail
      (Entry.survey callees labels (later.headD {}) s entry) rest

/-- What is known after an instruction that has a place. -/
def Entry.survey (callees : Callees) (labels : List Needs) (after : Needs) (s : Survey) :
    Nat × Instr → Survey
  | (place, instr) => Instr.survey callees labels place after s instr

end

/-! ## Frames -/

/-- How many values a function can keep in registers during a call, without a place in its frame
other than the one where the former content of the register is put. -/
def keptRegisters : Nat := 5

/-- How many arguments are given in registers. Two more are given with every call: the context of
the function and that of its caller. -/
def argumentRegisters : Nat := 6

/-- The octets that a number of words take in a frame, which grows by two words at a time. -/
def wordOctets (words : Nat) : Nat :=
  (words + 1) / 2 * 16

/-- The octets on the stack that a function takes, with its arguments and results as far as they do
not fit in registers. The least frame has two words: where to go back to, and the frame before it.
-/
def roomOf (callees : Callees) (signature : Signature) (locals : List ValueType) (body : Code) :
    Nat :=
  let params := signature.params.length
  let results := signature.results.length
  let hidden := if 1 < results then 1 else 0
  let after : Needs := { operands := List.replicate results true }
  let start : Survey :=
    { locals := ((List.range params).map (fun index => [Source.argument index]) ++
        locals.map fun _ => []).toArray
      operands := []
      based := false
      linked := []
      kept := 0 }
  let later := (Code.points callees [after] after body).2
  let kept := (Code.survey callees [after] later start body).kept + hidden
  16 + wordOctets (params + 2 + hidden - argumentRegisters) + wordOctets (results - 1) +
    wordOctets (min kept keptRegisters) + wordOctets (kept - keptRegisters)

end Wasm

end WasiHost
