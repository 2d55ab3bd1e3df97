import WasiHost.Text.Utf8
import WasiHost.Wasm.Room

/-!
# The binary format of programs

Reads a module from octets. A reader takes what it needs from the front of the octets and passes the
rest on, or refuses. Sections come in a fixed order and fill exactly the length they give, and so
does the code of each function. A reader knows how many octets stand before it, which is how
instructions come by their places. -/

namespace WasiHost

namespace Wasm

/-- The octets from a place of a module on. -/
structure Cursor where
  /-- How many octets of the module stand before these. -/
  place : Nat
  rest : Bytes
  deriving DecidableEq, Inhabited

/-- Takes something from the front of the octets. -/
abbrev Reader := StateT Cursor Option

namespace Reader

/-- Refuses the octets. -/
def refuse {α : Type} : Reader α := fun _ => none

/-- Refuses the octets unless something holds. -/
def ensure (condition : Bool) : Reader Unit :=
  if condition then pure () else refuse

/-- Takes one octet. -/
def octet : Reader UInt8 := fun cursor =>
  match cursor.rest with
  | [] => none
  | b :: rest => some (b, { place := cursor.place + 1, rest })

/-- Takes a number of octets. -/
def take (length : Nat) : Reader Bytes := fun { place, rest } =>
  if length ≤ rest.length then
    some (rest.take length, { place := place + length, rest := rest.drop length })
  else none

/-- The place of the next octet. -/
def place : Reader Nat := fun cursor =>
  some (cursor.place, cursor)

/-- How many octets are left. -/
def remaining : Reader Nat := fun cursor =>
  some (cursor.rest.length, cursor)

/-- Whether no octets are left. -/
def atEnd : Reader Bool := fun cursor =>
  some (cursor.rest.isEmpty, cursor)

/-- Takes something that fills exactly a number of octets. -/
def filling {α : Type} (length : Nat) (reader : Reader α) : Reader α := do
  let place ← place
  let rest ← take length
  match reader { place, rest } with
  | some (a, { rest := [], .. }) => pure a
  | _ => refuse

/-- Takes a variable-length number of at most `octets` octets: seven bits each, the lowest first,
with the highest bit set in all but the last. Answers the number and how many bits were given. -/
def groups : (octets : Nat) → Reader (Nat × Nat)
  | 0 => refuse
  | octets + 1 => do
    let b ← octet
    if b < 0x80 then pure (b.toNat, 7)
    else do
      let (high, bits) ← groups octets
      pure ((b.toNat - 0x80) + 128 * high, bits + 7)

/-- Takes a 32-bit number without sign. -/
def unsigned32 : Reader Nat := do
  let (n, _) ← groups 5
  ensure (n < UInt32.size)
  pure n

/-- Takes a number with sign, in two's complement, that has to fit in `width` bits. -/
def signed (octets width : Nat) : Reader Int := do
  let (n, bits) ← groups octets
  let value : Int := if Nat.pow 2 (bits - 1) ≤ n then (n : Int) - Nat.pow 2 bits else n
  let bound : Int := Nat.pow 2 (width - 1)
  ensure (-bound ≤ value ∧ value < bound)
  pure value

/-- Takes a 32-bit constant. -/
def constant32 : Reader UInt32 := do
  let n ← signed 5 32
  pure (UInt32.ofInt n)

/-- Takes a 64-bit constant. -/
def constant64 : Reader UInt64 := do
  let n ← signed 10 64
  pure (UInt64.ofInt n)

/-- Takes something a number of times. -/
def times {α : Type} (reader : Reader α) : Nat → Reader (List α)
  | 0 => pure []
  | n + 1 => do
    let a ← reader
    let rest ← times reader n
    pure (a :: rest)

/-- Takes a list that is preceded by its length. -/
def list {α : Type} (reader : Reader α) : Reader (List α) := do
  let length ← unsigned32
  times reader length

/-- Takes a name. -/
def name : Reader String := do
  let length ← unsigned32
  let bytes ← take length
  match Utf8.decode? bytes with
  | some name => pure name
  | none => refuse

/-! ## Types -/

/-- Takes the type of a value. -/
def valueType : Reader ValueType := do
  let b ← octet
  if b = 0x7f then pure .i32
  else if b = 0x7e then pure .i64
  else if b = 0x7d then pure .f32
  else if b = 0x7c then pure .f64
  else if b = 0x7b then pure .v128
  else if b = 0x70 then pure .funcref
  else if b = 0x6f then pure .externref
  else refuse

/-- Takes a signature. -/
def signature : Reader Signature := do
  let form ← octet
  ensure (form = 0x60)
  let params ← list valueType
  let results ← list valueType
  pure { params, results }

/-- Takes how large something is at first and at most. -/
def limits : Reader Limits := do
  let form ← octet
  if form = 0 then do
    let least ← unsigned32
    pure { least, most := none }
  else if form = 1 then do
    let least ← unsigned32
    let most ← unsigned32
    ensure (least ≤ most)
    pure { least, most := some most }
  else refuse

/-- Takes the type of a memory. -/
def memoryType : Reader Limits := do
  let limits ← limits
  ensure (limits.least ≤ pageLimit ∧ limits.most.all fun most => most ≤ pageLimit)
  pure limits

/-- Takes the type of a global. -/
def globalType : Reader ValueType := do
  let type ← valueType
  let mutability ← octet
  ensure (mutability < 2)
  pure type

/-- Takes the type of a table. -/
def tableType : Reader Unit := do
  let type ← valueType
  ensure (type = .funcref ∨ type = .externref)
  let _ ← limits
  pure ()

/-! ## Code -/

/-- What an `end` closes. -/
inductive BlockKind where
  | block
  | loop
  | cond

/-- The instruction that a closed block is. -/
def BlockKind.close (kind : BlockKind) (body : Code) : Instr :=
  match kind with
  | block => .block body
  | loop => .loop body
  | cond => .cond body

/-- A block that is open, with the instructions before it, the last first. -/
structure OpenBlock where
  kind : BlockKind
  place : Nat
  before : Code

/-- What an operation code begins. -/
inductive Opcode where
  | plain (instr : Instr)
  | opening (kind : BlockKind)
  | closing

/-- Takes the type of a block, which has to be empty. -/
def emptyBlockType : Reader Unit := do
  let b ← octet
  ensure (b = 0x40)

/-- Takes the alignment and the offset of a memory access, and answers the offset. -/
def memoryOffset : Reader Nat := do
  let _ ← unsigned32
  unsigned32

/-- Takes an operation code with what belongs to it. -/
def opcode : Reader Opcode := do
  let b ← octet
  match b.toNat with
  | 0x00 => pure (.plain .unreachable)
  | 0x02 => do emptyBlockType; pure (.opening .block)
  | 0x03 => do emptyBlockType; pure (.opening .loop)
  | 0x04 => do emptyBlockType; pure (.opening .cond)
  | 0x0b => pure .closing
  | 0x0c => do let n ← unsigned32; pure (.plain (.br n))
  | 0x0d => do let n ← unsigned32; pure (.plain (.brIf n))
  | 0x10 => do let n ← unsigned32; pure (.plain (.call n))
  | 0x1a => pure (.plain .drop)
  | 0x20 => do let n ← unsigned32; pure (.plain (.localGet n))
  | 0x21 => do let n ← unsigned32; pure (.plain (.localSet n))
  | 0x22 => do let n ← unsigned32; pure (.plain (.localTee n))
  | 0x28 => do let n ← memoryOffset; pure (.plain (.load32 n))
  | 0x36 => do let n ← memoryOffset; pure (.plain (.store32 n))
  | 0x3a => do let n ← memoryOffset; pure (.plain (.store8 n))
  | 0x3f => do let b ← octet; ensure (b = 0); pure (.plain .memorySize)
  | 0x40 => do let b ← octet; ensure (b = 0); pure (.plain .memoryGrow)
  | 0x41 => do let n ← constant32; pure (.plain (.const32 n))
  | 0x42 => do let n ← constant64; pure (.plain (.const64 n))
  | 0x45 => pure (.plain .eqz32)
  | 0x6a => pure (.plain .add32)
  | 0x6e => pure (.plain .divU32)
  | _ => refuse

/-- Takes instructions up to the `end` of the outermost block. `opened` holds the open blocks, the
innermost first, and `read` the instructions of the innermost one, the last first. Each operation
code takes an octet at least, so `fuel` need not be more than there are octets. -/
def code (fuel : Nat) (opened : List OpenBlock) (read : Code) : Reader Code :=
  match fuel with
  | 0 => refuse
  | fuel + 1 => do
    let place ← place
    match ← opcode with
    | .plain instr => code fuel opened ((place, instr) :: read)
    | .opening kind => code fuel ({ kind, place, before := read } :: opened) []
    | .closing =>
      match opened with
      | [] => pure read.reverse
      | block :: opened =>
        code fuel opened ((block.place, block.kind.close read.reverse) :: block.before)

/-- Takes instructions up to their `end`. -/
def expression : Reader Code := do
  code (← remaining) [] []

/-- Takes a constant expression of 32 bits. -/
def constantExpression : Reader UInt32 := do
  match ← expression with
  | [(_, .const32 n)] => pure n
  | _ => refuse

/-- Takes a constant expression of either width. -/
def initializer : Reader Unit := do
  match ← expression with
  | [(_, .const32 _)] | [(_, .const64 _)] => pure ()
  | _ => refuse

/-- The most locals a function can have. -/
def localLimit : Nat := 50000

/-- Takes the locals of a function, given in runs of one type. -/
def localTypes : Reader (List ValueType) := do
  let runs ← list do
    let count ← unsigned32
    let type ← valueType
    pure (count, type)
  ensure (runs.foldl (fun total (count, _) => total + count) 0 ≤ localLimit)
  pure (runs.flatMap fun (count, type) => List.replicate count type)

/-- Takes the locals and the instructions of a function. -/
def functionBody : Reader (List ValueType × Code) := do
  let length ← unsigned32
  filling length do
    let locals ← localTypes
    let body ← expression
    pure (locals, body)

/-! ## Sections -/

/-- What has been read of a module. -/
structure Draft where
  types : Array Signature := #[]
  imports : List Import := []
  /-- The signatures of the functions of the module. -/
  declared : List Signature := []
  bodies : List (List ValueType × Code) := []
  memories : List Limits := []
  globals : Nat := 0
  exports : List (String × ExportKind) := []
  start : Option Nat := none
  segments : List Segment := []

/-- Takes the index of a signature. -/
def signatureIndex (draft : Draft) : Reader Signature := do
  let index ← unsigned32
  match draft.types[index]? with
  | some signature => pure signature
  | none => refuse

/-- Takes an import. -/
def importEntry (draft : Draft) : Reader Import := do
  let moduleName ← name
  let field ← name
  let kind ← octet
  match kind.toNat with
  | 0 => do let s ← signatureIndex draft; pure { moduleName, name := field, kind := .function s }
  | 1 => do tableType; pure { moduleName, name := field, kind := .table }
  | 2 => do let _ ← memoryType; pure { moduleName, name := field, kind := .memory }
  | 3 => do let _ ← globalType; pure { moduleName, name := field, kind := .global }
  | _ => refuse

/-- Takes an export. -/
def exportEntry : Reader (String × ExportKind) := do
  let field ← name
  let kind ← octet
  let index ← unsigned32
  match kind.toNat with
  | 0 => pure (field, .function index)
  | 1 => pure (field, .table index)
  | 2 => pure (field, .memory index)
  | 3 => pure (field, .global index)
  | _ => refuse

/-- Takes octets for the memory, which stand at a constant address. -/
def segment : Reader Segment := do
  let mode ← unsigned32
  if mode = 2 then do
    let memory ← unsigned32
    ensure (memory = 0)
  else ensure (mode = 0)
  let address ← constantExpression
  let length ← unsigned32
  let bytes ← take length
  pure { address, bytes }

/-- The place of a section in the order of sections; custom sections have none. -/
def sectionRank? (id : UInt8) : Option Nat :=
  [1, 2, 3, 4, 5, 6, 7, 8, 9, 12, 10, 11].findIdx? fun known => known = id.toNat

/-- Takes the content of a section. -/
def sectionContent (id : UInt8) (draft : Draft) : Reader Draft := do
  match id.toNat with
  | 1 => do let types ← list signature; pure { draft with types := types.toArray }
  | 2 => do let imports ← list (importEntry draft); pure { draft with imports }
  | 3 => do let declared ← list (signatureIndex draft); pure { draft with declared }
  | 5 => do let memories ← list memoryType; pure { draft with memories }
  | 6 => do
    let globals ← list do
      let _ ← globalType
      initializer
    pure { draft with globals := globals.length }
  | 7 => do let exports ← list exportEntry; pure { draft with exports }
  | 8 => do let start ← unsigned32; pure { draft with start := some start }
  | 10 => do let bodies ← list functionBody; pure { draft with bodies }
  | 11 => do let segments ← list segment; pure { draft with segments }
  | 12 => do let _ ← unsigned32; pure draft
  | _ => refuse

/-- Takes the sections that come at a place from `rank` on in the order of sections, up to the end
of the octets. Each takes an octet at least, so `fuel` need only be more than there are octets. -/
def sections (fuel rank : Nat) (draft : Draft) : Reader Draft :=
  match fuel with
  | 0 => refuse
  | fuel + 1 => do
    if ← atEnd then pure draft
    else do
      let id ← octet
      let length ← unsigned32
      if id = 0 then do
        filling length do
          let _ ← name
          let _ ← take (← remaining)
        sections fuel rank draft
      else
        match sectionRank? id with
        | none => refuse
        | some place => do
          ensure (rank ≤ place)
          let draft ← filling length (sectionContent id draft)
          sections fuel (place + 1) draft

/-! ## Modules -/

/-- How many imports of a draft are of a kind. -/
def Draft.imported (draft : Draft) (kind : ImportKind → Bool) : Nat :=
  draft.imports.countP fun i => kind i.kind

/-- Whether an export gives out something that exists. -/
def Draft.gives (draft : Draft) : ExportKind → Bool
  | .function index =>
    index < (draft.imported fun | .function _ => true | _ => false) + draft.declared.length
  | .table index => index < draft.imported (· = .table)
  | .memory index => index < draft.imported (· = .memory) + draft.memories.length
  | .global index => index < draft.imported (· = .global) + draft.globals

/-- Whether a list of names has no name twice. -/
def distinct : List String → Bool
  | [] => true
  | name :: names => !names.contains name && distinct names

/-- What the functions of a draft need to know about one another. -/
def Draft.callees (draft : Draft) : Callees :=
  let imported := draft.imports.filterMap fun i =>
    match i.kind with
    | .function signature => some signature
    | _ => none
  { signatures := (imported ++ draft.declared).toArray, imports := imported.length }

/-- The module that a draft is, if its parts fit together. -/
def Draft.toModule? (draft : Draft) : Option Module :=
  let memories := draft.imported (· = .memory) + draft.memories.length
  let callees := draft.callees
  let module : Module :=
    { imports := draft.imports
      functions := ((draft.declared.zip draft.bodies).map fun (signature, locals, body) =>
        { signature, locals, body, room := roomOf callees signature locals body }).toArray
      memory := draft.memories.head?
      exports := draft.exports
      start := draft.start
      segments := draft.segments }
  let startFits := draft.start.all fun index =>
    module.signature? index = some { params := [], results := [] }
  if draft.declared.length = draft.bodies.length ∧ memories ≤ 1 ∧
      (draft.segments = [] ∨ memories = 1) ∧ draft.exports.all (fun entry => draft.gives entry.2) ∧
      distinct (draft.exports.map Prod.fst) ∧ startFits then
    some module
  else none

/-- The mark and the version that a module begins with. -/
def preamble : Bytes := [0x00, 0x61, 0x73, 0x6d, 0x01, 0x00, 0x00, 0x00]

/-- Takes a module, up to the end of the octets. -/
def module : Reader Draft := do
  let bytes ← take preamble.length
  ensure (bytes = preamble)
  sections ((← remaining) + 1) 0 {}

end Reader

/-- The module whose binary form is given. -/
def Module.ofBytes? (bytes : Bytes) : Option Module :=
  match Reader.module { place := 0, rest := bytes } with
  | some (draft, _) => draft.toModule?
  | none => none

end Wasm

end WasiHost
