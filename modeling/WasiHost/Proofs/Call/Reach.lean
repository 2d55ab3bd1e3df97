import WasiHost.Proofs.Call.Outcome
import WasiHost.Proofs.Layout.Record
import WasiHost.Proofs.Memory.Strings

/-!
# Where a call writes

Each argument that names a place for a result names a range, and a call writes to no other place:
not when it succeeds, and not when it fails half way. Only a read of a descriptor needs more than
its arguments to say where: the list of buffers is decoded from memory, once and before anything is
written, so a buffer that covers the list itself does not lead the read astray.

* **`Call.MayWrite`** — the indices a call may write to.
* **`Call.sameOutside_body`** — no body reaches beyond them.
* **`Call.perform_writes_only`** — so nothing else differs after a call, and the memory keeps its
  size.
-/

namespace WasiHost

open Memory

/-- The octets that a read of a descriptor finds to be read. -/
def Session.source (s : Session) (host : Host) (fd : Fd) : Bytes :=
  match s.table.get fd with
  | .ok .stdin => s.stdin
  | .ok (.file path offset content _) => ((host.loaded? path content).getD []).drop offset.toNat
  | _ => []

namespace Action

variable {α : Type} {place : Nat → Prop} {host : Host} {w : Workspace} {fd : Fd}

theorem reachesOnly_access {x : Access α} (h : ReachesOnly place id x) :
    ReachesOnly place Workspace.memory (access x) := by
  intro w
  have hmemory := h w.memory
  unfold access
  cases hx : x w.memory with
  | ok a memory =>
    rw [hx] at hmemory
    exact hmemory
  | error e memory =>
    rw [hx] at hmemory
    exact hmemory

theorem reachesOnly_of_keeps {x : Action α} (h : Keeps id x) :
    ReachesOnly place Workspace.memory x :=
  .of_keeps (h.map Workspace.memory)

/-- A record of `length` octets goes where it is stored. -/
theorem reachesOnly_store {data : Bytes} {length : Nat} (address : UInt32)
    (h : data.length = length) :
    ReachesOnly (Spans address length) Workspace.memory (access (Access.write address data)) :=
  h ▸ reachesOnly_access (Access.reachesOnly_write address data)

theorem reachesOnly_writeU32 (address n : UInt32) :
    ReachesOnly (Spans address 4) Workspace.memory (access (Access.writeU32 address n)) :=
  reachesOnly_access (Access.reachesOnly_writeU32 address n)

theorem reachesOnly_writeU64 (address : UInt32) (n : UInt64) :
    ReachesOnly (Spans address 8) Workspace.memory (access (Access.writeU64 address n)) :=
  reachesOnly_access (Access.reachesOnly_writeU64 address n)

/-! ## Bodies that store one result

What comes before the store only looks, so it stays in any place (`reachesOnly_of_keeps`), and the
place of the body is that of the store. Each lemma is the walk of `LeadsTo` with
`reachesOnly_leadsTo`. -/

/-- The walk of a body: `Keeps id` may come before a store to a place. -/
theorem reachesOnly_leadsTo (place : Nat → Prop) :
    LeadsTo (Keeps (id : Workspace → Workspace))
      (fun {α : Type} (x : Action α) => ReachesOnly place Workspace.memory x) where
  sequential := Keeps.sequential id
  refuse _ := reachesOnly_throw place _ _
  bind hx hf := (reachesOnly_of_keeps hx).bind hf

theorem reachesOnly_clockResGet (clock address : UInt32) :
    ReachesOnly (Spans address 8) Workspace.memory (clockResGet clock address) :=
  (reachesOnly_leadsTo _).clockResGet (keeps_checkClock clock) fun _ => reachesOnly_writeU64 _ _

theorem reachesOnly_clockTimeGet (host : Host) (clock : UInt32) (precision : UInt64)
    (address : UInt32) :
    ReachesOnly (Spans address 8) Workspace.memory (clockTimeGet host clock precision address) :=
  (reachesOnly_leadsTo _).clockTimeGet (keeps_checkClock clock) (fun _ => reachesOnly_writeU64 _ _)
    precision

theorem reachesOnly_fdFdstatGet (host : Host) (fd : Fd) (address : UInt32) :
    ReachesOnly (Spans address 24) Workspace.memory (fdFdstatGet host fd address) :=
  (reachesOnly_leadsTo _).fdFdstatGet (keeps_descriptor fd) (keeps_fileStat host) fun status =>
    reachesOnly_store address status.length_pack

theorem reachesOnly_fdPrestatGet (fd : Fd) (address : UInt32) :
    ReachesOnly (Spans address 8) Workspace.memory (fdPrestatGet fd address) :=
  (reachesOnly_leadsTo _).fdPrestatGet (keeps_descriptor fd) fun prestat =>
    reachesOnly_store address prestat.length_pack

/-- `fdPrestatDirName` refuses a name that is longer than its buffer, so it does not run over. -/
theorem reachesOnly_fdPrestatDirName (fd : Fd) (address size : UInt32) :
    ReachesOnly (Spans address size.toNat) Workspace.memory
      (fdPrestatDirName fd address size) := by
  refine (reachesOnly_leadsTo _).fdPrestatDirName (keeps_descriptor fd) fun data hfits => ?_
  refine (reachesOnly_store address rfl).mono fun i hi => ?_
  unfold Spans at hi ⊢
  omega

theorem reachesOnly_fdSeek (fd : Fd) (address : UInt32) :
    ReachesOnly (Spans address 8) Workspace.memory (fdSeek fd address) :=
  (reachesOnly_leadsTo _).fdSeek (keeps_look _) fun _ => reachesOnly_writeU64 _ _

theorem reachesOnly_pathFilestatGet (host : Host) (fd : Fd) (path pathLength address : UInt32) :
    ReachesOnly (Spans address 64) Workspace.memory
      (pathFilestatGet host fd path pathLength address) :=
  (reachesOnly_leadsTo _).pathFilestatGet (keeps_resolve fd path pathLength) (keeps_fileStat host)
    fun stat => reachesOnly_store address stat.length_pack

theorem reachesOnly_randomGet (host : Host) (address length : UInt32) :
    ReachesOnly (Spans address length.toNat) Workspace.memory (randomGet host address length) :=
  reachesOnly_access (Access.reachesOnly_overwrite _ _ _)

/-! ## Writes, and bodies that change the table

What these do to session and texts is no matter here. Their accesses are followed by
`ReachesOnly.sequential`. -/

/-- `fdWrite` stores its count and nothing else. -/
theorem reachesOnly_fdWrite (fd : Fd) (buffers count address : UInt32) :
    ReachesOnly (Spans address 4) Workspace.memory (fdWrite fd buffers count address) :=
  (ReachesOnly.sequential _ _).fdWrite
    (reachesOnly_of_keeps (keeps_access (Access.keeps_readIoVecs _ _)))
    (reachesOnly_of_keeps (keeps_access (Access.keeps_check _ _)))
    (fun vectors => .of_keeps ((keeps_writeFrom fd vectors).map Prod.snd))
    fun _ => reachesOnly_writeU32 _ _

/-- `closeDescriptor` works on the table, and so do the other steps without an address. -/
theorem keeps_memory_closeDescriptor (fd : Fd) : Keeps Workspace.memory (closeDescriptor fd) :=
  (Keeps.sequential _).closeDescriptor (fun _ => rfl) (fun _ _ => rfl) fun _ _ => rfl

theorem keeps_memory_openDescriptor (d : Descriptor) :
    Keeps Workspace.memory (openDescriptor d) :=
  (Keeps.sequential _).openDescriptor (fun _ => rfl) (fun _ _ => rfl) (fun _ _ => rfl) d

theorem keeps_memory_fdFdstatSetFlags (fd : Fd) (flags : UInt32) :
    Keeps Workspace.memory (fdFdstatSetFlags fd flags) :=
  (Keeps.sequential _).leadsTo.fdFdstatSetFlags (fun _ => rfl) (fun _ _ => rfl) (keeps_pure _) flags

theorem reachesOnly_reveal (fd : Fd) (address : UInt32) :
    ReachesOnly (Spans address 4) Workspace.memory (reveal fd address) := by
  intro w
  have hstore := reachesOnly_writeU32 address fd w
  -- the number is stored, or the descriptor is closed after that has failed
  rcases endState_reveal_cases fd address w with h | h
  · rwa [h]
  · rwa [h, keeps_memory_closeDescriptor fd]

/-- `pathOpen` stores the number of its descriptor and nothing else. -/
theorem reachesOnly_pathOpen (host : Host) (fd : Fd) (path pathLength : UInt32)
    (openFlags : OpenFlags) (rightsBase rightsInheriting : Rights) (fdFlags address : UInt32) :
    ReachesOnly (Spans address 4) Workspace.memory
      (pathOpen host fd path pathLength openFlags rightsBase rightsInheriting fdFlags address) :=
  (ReachesOnly.sequential _ _).pathOpen (reachesOnly_of_keeps (keeps_resolve fd path pathLength))
    (fun d => .of_keeps (keeps_memory_openDescriptor d)) (fun new => reachesOnly_reveal new address)
    openFlags rightsBase rightsInheriting fdFlags

/-! ## Start-up calls

Two of them store two words, and two a list of strings, whose place is
`Access.reachesOnly_writeStrings`. -/

theorem reachesOnly_storeSizes (count size : Nat) (countAddress sizeAddress : UInt32) :
    ReachesOnly (fun i => Spans countAddress 4 i ∨ Spans sizeAddress 4 i) Workspace.memory
      (storeSizes count size countAddress sizeAddress) :=
  (ReachesOnly.sequential _ _).storeSizes
    (fun n => (reachesOnly_writeU32 countAddress n).mono fun _ => .inl)
    (fun n => (reachesOnly_writeU32 sizeAddress n).mono fun _ => .inr) count size

theorem reachesOnly_argsSizesGet (count size : UInt32) :
    ReachesOnly (fun i => Spans count 4 i ∨ Spans size 4 i) Workspace.memory
      (argsSizesGet count size) :=
  (reachesOnly_of_keeps (keeps_look _)).bind fun _ => reachesOnly_storeSizes _ _ _ _

theorem reachesOnly_environSizesGet (count size : UInt32) :
    ReachesOnly (fun i => Spans count 4 i ∨ Spans size 4 i) Workspace.memory
      (environSizesGet count size) :=
  (reachesOnly_of_keeps (keeps_look _)).bind fun _ => reachesOnly_storeSizes _ _ _ _

/-- `argsGet` writes `argumentStrings`: how far they reach, the options of the session say. -/
theorem argsGet_eq (pointers strings : UInt32) (w : Workspace) :
    argsGet pointers strings w =
      access (Access.writeStrings w.session.options.argumentStrings strings pointers) w :=
  rfl

theorem environGet_eq (pointers strings : UInt32) (w : Workspace) :
    environGet pointers strings w =
      access (Access.writeStrings w.session.options.environmentStrings strings pointers) w :=
  rfl

/-! ## Reads

The list is read before anything is written. So the buffers are those that `Memory.buffers?` finds
in the memory of before, and the source is what `Session.source` finds in the session of before. -/

/-- `readInto` leaves the memory as it was, or as `scatter` leaves it. -/
theorem memory_readInto (host : Host) (fd : Fd) (vectors : List IoVec) (w : Workspace) :
    (endState (readInto host fd vectors w)).memory = w.memory ∨
      (endState (readInto host fd vectors w)).memory =
        endState (Access.scatter vectors (w.session.source host fd) w.memory) := by
  rcases readInto_cases host fd vectors w with
    hstdin | ⟨path, offset, content, status, bytes, hget, hbytes⟩ | ⟨_, e, herror⟩
  · refine .inr ?_
    have hsource : w.session.source host fd = w.session.stdin := by rw [Session.source, hstdin]
    rw [readInto_stdin hstdin, hsource]
    -- the queue is what is scattered, and the rest of the body leaves memory alone
    cases Access.scatter vectors w.session.stdin w.memory <;> rfl
  · refine .inr ?_
    have hsource : w.session.source host fd = bytes.drop offset.toNat := by
      rw [Session.source, hget]
      simp only [hbytes, Option.getD_some]
    rw [readInto_file hget hbytes, hsource]
    cases Access.scatter vectors (bytes.drop offset.toNat) w.memory <;> rfl
  · rw [herror]
    exact .inl rfl

/-- A scatter stays where its source fills the buffers: `Access.reachesOnly_scatter`. -/
theorem sameOutside_readInto (host : Host) (fd : Fd) (vectors : List IoVec) (w : Workspace) :
    SameOutside (IoVec.Takes vectors (w.session.source host fd).length) w.memory
      (endState (readInto host fd vectors w)).memory := by
  rcases memory_readInto host fd vectors w with hsame | hscatter
  · rw [hsame]
    exact .refl _ _
  · rw [hscatter]
    exact Access.reachesOnly_scatter vectors (w.session.source host fd) w.memory

/-- `fdRead` stays in its cell and in the parts of the buffers that its source fills. -/
theorem sameOutside_fdRead (host : Host) (fd : Fd) (buffers count address : UInt32)
    (w : Workspace) :
    SameOutside
      (fun i => Spans address 4 i ∨
        ∃ vectors, w.memory.buffers? buffers count address = some vectors ∧
          IoVec.Takes vectors (w.session.source host fd).length i)
      w.memory (endState (fdRead host fd buffers count address w)).memory := by
  cases hbuffers : w.memory.buffers? buffers count address with
  | none =>
    obtain ⟨e, herror⟩ := fdRead_of_buffers?_eq_none host fd hbuffers
    rw [herror]
    exact .refl _ _
  | some vectors =>
    rw [fdRead_of_buffers? hbuffers]
    refine sameOutside_bind ((sameOutside_readInto host fd vectors w).mono fun i hi => ?_)
      fun moved _ _ => (reachesOnly_writeU32 address moved).mono fun i hi => .inl hi
    exact .inr ⟨vectors, rfl, hi⟩

end Action

/-! ## Calls

`Call.MayWrite` has the place of every call, and `sameOutside_body` puts the lemmas about bodies
together. -/

namespace Call

open WasiHost.Action

/-- The indices of guest memory that a call may write to, on the session and the memory it finds. -/
def MayWrite (host : Host) (s : Session) (memory : Memory) (i : Nat) : Call → Prop
  | argsGet pointers strings =>
    Spans strings s.options.argumentStrings.flatten.length i ∨
      Spans pointers (4 * s.options.argumentStrings.length) i
  | environGet pointers strings =>
    Spans strings s.options.environmentStrings.flatten.length i ∨
      Spans pointers (4 * s.options.environmentStrings.length) i
  | argsSizesGet count size | environSizesGet count size => Spans count 4 i ∨ Spans size 4 i
  | clockResGet _ address | clockTimeGet _ _ address | fdSeek _ _ _ address
  | fdPrestatGet _ address => Spans address 8 i
  | fdFdstatGet _ address => Spans address 24 i
  | pathFilestatGet _ _ _ _ address => Spans address 64 i
  | fdWrite _ _ _ address | pathOpen _ _ _ _ _ _ _ _ address => Spans address 4 i
  | fdPrestatDirName _ address size => Spans address size.toNat i
  | randomGet address length => Spans address length.toNat i
  | fdRead fd buffers count address =>
    Spans address 4 i ∨
      ∃ vectors, memory.buffers? buffers count address = some vectors ∧
        IoVec.Takes vectors (s.source host fd).length i
  | clockResolution _ | fdClose _ | fdFdstatSetFlags _ _ | procExit _ => False

/-- However a body ends, it has left guest memory alone outside of `MayWrite`. -/
theorem sameOutside_body (host : Host) (call : Call) (w : Workspace) :
    SameOutside (fun i => call.MayWrite host w.session w.memory i) w.memory
      (endState (call.body host w)).memory := by
  cases call with
  | argsGet pointers strings =>
    rw [body, argsGet_eq]
    -- how far depends on the options, so these are asked for first
    exact reachesOnly_access (Access.reachesOnly_writeStrings _ _ _) w
  | argsSizesGet count size => exact reachesOnly_argsSizesGet count size w
  | environGet pointers strings =>
    rw [body, environGet_eq]
    exact reachesOnly_access (Access.reachesOnly_writeStrings _ _ _) w
  | environSizesGet count size => exact reachesOnly_environSizesGet count size w
  | clockResolution clock => exact reachesOnly_of_keeps (keeps_checkClock clock) w
  | clockResGet clock address => exact reachesOnly_clockResGet clock address w
  | clockTimeGet clock precision address =>
    exact reachesOnly_clockTimeGet host clock precision address w
  -- no address among the arguments
  | fdClose fd => exact ReachesOnly.of_keeps (keeps_memory_closeDescriptor fd) w
  | fdFdstatGet fd address => exact reachesOnly_fdFdstatGet host fd address w
  | fdFdstatSetFlags fd flags =>
    exact ReachesOnly.of_keeps (keeps_memory_fdFdstatSetFlags fd flags) w
  | fdPrestatGet fd address => exact reachesOnly_fdPrestatGet fd address w
  | fdPrestatDirName fd address size => exact reachesOnly_fdPrestatDirName fd address size w
  | fdRead fd buffers count address => exact sameOutside_fdRead host fd buffers count address w
  | fdSeek fd offset whence address => exact reachesOnly_fdSeek fd address w
  | fdWrite fd buffers count address => exact reachesOnly_fdWrite fd buffers count address w
  | pathFilestatGet fd flags path pathLength address =>
    exact reachesOnly_pathFilestatGet host fd path pathLength address w
  | pathOpen fd dirFlags path pathLength openFlags rightsBase rightsInheriting fdFlags address =>
    exact reachesOnly_pathOpen host fd path pathLength openFlags rightsBase rightsInheriting fdFlags
      address w
  | procExit code => exact .refl _ _
  | randomGet address length => exact reachesOnly_randomGet host address length w

/-- `perform` leaves the memory that the body has left: what is traced does not touch it. -/
theorem memory_perform (host : Host) (call : Call) (s : Session) (memory : Memory) :
    (call.perform host s memory).memory = (endState (call.run host s memory)).memory := by
  cases h : call.run host s memory with
  | ok u w => exact (perform_of_ok h).2.2
  | error e w => exact (perform_of_error h).2

/-- What `sameOutside_body` says of the body, said of the reply. -/
theorem sameOutside_perform (host : Host) (call : Call) (s : Session) (memory : Memory) :
    SameOutside (fun i => call.MayWrite host s memory i) memory
      (call.perform host s memory).memory := by
  rw [memory_perform]
  exact sameOutside_body host call { session := s, memory := memory, events := [] }

/-- Whatever becomes of a call, the memory keeps its size, and an index that holds something else
afterwards is one that the call `MayWrite` to. -/
theorem perform_writes_only (host : Host) (call : Call) (s : Session) (linear : LinearMemory) :
    ∃ after, (call.perform host s (.attached linear)).memory = .attached after ∧
      after.bytes.size = linear.bytes.size ∧
      ∀ i : Nat, after.bytes[i]? ≠ linear.bytes[i]? →
        call.MayWrite host s (.attached linear) i := by
  -- the memory of the reply is attached, since it is related to one that is
  obtain ⟨after, hmemory, hsize, -, hsame⟩ :=
    (sameOutside_perform host call s (.attached linear)).exists_linear
  refine ⟨after, hmemory, hsize, fun i hdiffers => ?_⟩
  -- outside of its places nothing differs
  by_contra hplace
  have hoctet := hsame i hplace
  exact hdiffers (by rw [Octets.getElem?_eq, Octets.getElem?_eq, hsize, hoctet])

end Call

end WasiHost
