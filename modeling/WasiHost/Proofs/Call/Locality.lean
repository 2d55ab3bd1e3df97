import WasiHost.Proofs.Call.Detached
import WasiHost.Proofs.Call.Reach
import WasiHost.Proofs.Call.Write
import WasiHost.Proofs.Memory.Locality

/-!
# What is asked of one descriptor

Reading, writing, seeking and the two calls about the status of a descriptor have in common that
they ask something of one descriptor. Such a call looks at the entry of its descriptor, at the queue
if the descriptor reads from it, and at its list and its buffers in guest memory. So on two
workspaces that agree about these it goes the same way, and leaves workspaces that agree about them.

* **`Operation`** — what is asked, with the places it reads and writes: `Operation.Reads`,
  `Operation.Writes`.
* **`Workspace.AgreesFor`** — two workspaces agree about a descriptor, and about guest memory
  outside a place.
* **`Operation.agreesFor_perform`** — such a call goes the same way on both, if it reads nothing in
  that place.
* **`Operation.sameOutside_perform`**, **`Operation.texts_perform`** — what it leaves alone.
-/

namespace WasiHost

open Memory

/-- What is asked of the descriptor under a number. -/
inductive Operation where
  | status (address : UInt32)
  | setFlags (flags : UInt32)
  | read (buffers count address : UInt32)
  | seek (offset : Int64) (whence address : UInt32)
  | write (buffers count address : UInt32)
  deriving DecidableEq

/-- An index in the array of a list of buffers. -/
def InArray (buffers count : UInt32) (i : Nat) : Prop :=
  Spans buffers (count.toNat * IoVec.size.toNat) i

/-- An index in one of the buffers of a list that can be read. -/
def Memory.InBuffers (memory : Memory) (buffers count : UInt32) (i : Nat) : Prop :=
  ∃ vectors memory', Access.readIoVecs buffers count memory = .ok vectors memory' ∧
    ∃ v ∈ vectors, v.Covers i

namespace Operation

/-- The call that asks it of a descriptor. -/
def on (fd : Fd) : Operation → Call
  | status address => .fdFdstatGet fd address
  | setFlags flags => .fdFdstatSetFlags fd flags
  | read buffers count address => .fdRead fd buffers count address
  | seek offset whence address => .fdSeek fd offset whence address
  | write buffers count address => .fdWrite fd buffers count address

/-- The indices of guest memory that are looked at: the list of buffers, and of a write the buffers.
-/
def Reads (memory : Memory) (i : Nat) : Operation → Prop
  | read buffers count _ => InArray buffers count i
  | write buffers count _ => InArray buffers count i ∨ memory.InBuffers buffers count i
  | status _ | setFlags _ | seek _ _ _ => False

/-- The indices of guest memory that may be written to: those of the result, and of a read those of
the buffers. -/
def Writes (memory : Memory) (i : Nat) : Operation → Prop
  | status address => Spans address FdStat.size.toNat i
  | setFlags _ => False
  | read buffers count address => memory.InBuffers buffers count i ∨ Spans address 4 i
  | seek _ _ address => Spans address 8 i
  | write _ _ address => Spans address 4 i

end Operation

/-- Two workspaces agree about a descriptor and what it stands for, and about guest memory outside a
place. -/
structure Workspace.AgreesFor (fd : Fd) (place : Nat → Prop) (w w' : Workspace) : Prop where
  memory : SameOutside place w.memory w'.memory
  entry : w'.session.table.get fd = w.session.table.get fd
  queue : w.session.table.get fd = .ok .stdin → w'.session.stdin = w.session.stdin
  options : w'.session.options = w.session.options
  events : w'.events = w.events

theorem Workspace.AgreesFor.texts_eq {fd : Fd} {place : Nat → Prop} {w w' : Workspace}
    (h : w.AgreesFor fd place w') : w'.texts = w.texts := by
  rw [texts, texts, h.events]

namespace Action

variable {α : Type} {fd : Fd} {place : Nat → Prop} {w w' : Workspace} {vectors : List IoVec}
  {buffers count address : UInt32}

/-- On workspaces that agree about the descriptor and outside the place, the computation goes the
same way and leaves workspaces that agree so. -/
abbrev LocalTo (fd : Fd) (place : Nat → Prop) (x : Action α) : Prop :=
  Respects (Workspace.AgreesFor fd place) x

/-! ## Steps

`LocalTo` for the steps of the five bodies. It is `Respects` of a relation, so the walks through
bodies are those of `Respects.sequential`. -/

/-- `access` is local if the access `Overlooks` the place. -/
theorem localTo_access {x : Access α} (hx : Access.Overlooks place x) :
    LocalTo fd place (access x) := by
  intro w w' h
  have hend := hx _ _ h.memory
  unfold access
  generalize x w.memory = ended at hend ⊢
  generalize x w'.memory = ended' at hend ⊢
  cases hend with
  | ok a hmemory => exact .ok a ⟨hmemory, h.entry, h.queue, h.options, h.events⟩
  | error e hmemory => exact .error e ⟨hmemory, h.entry, h.queue, h.options, h.events⟩

/-- `descriptor` finds the same entry, whatever else is in the table. -/
theorem localTo_descriptor : LocalTo fd place (descriptor fd) := by
  intro w w' h
  show SameEnd _ (lift (w.session.table.get fd) w) (lift (w'.session.table.get fd) w')
  rw [h.entry]
  exact respects_lift _ w w' h

theorem localTo_fileStat (host : Host) (path : String) :
    LocalTo fd place (fileStat host path) := by
  intro w w' h
  -- of the session only the options are asked
  have hasked : w'.session.fileStat host.fileSystem path =
      w.session.fileStat host.fileSystem path := by
    simp only [Session.fileStat, Session.shownFileStat, h.options]
  show SameEnd _ (lift (w.session.fileStat host.fileSystem path) w)
    (lift (w'.session.fileStat host.fileSystem path) w')
  rw [hasked]
  exact respects_lift _ w w' h

theorem localTo_emit (events : List Event) : LocalTo fd place (emit events) :=
  fun _ _ h => .ok () ⟨h.memory, h.entry, h.queue, h.options, congrArg (· ++ events) h.events⟩

/-- `setDescriptor` puts no descriptor that reads from the queue where another one was. -/
theorem sameEnd_setDescriptor {d : Descriptor} (h : w.AgreesFor fd place w')
    (hd : d = .stdin → w.session.table.get fd = .ok .stdin) :
    SameEnd (Workspace.AgreesFor fd place) (setDescriptor fd d w) (setDescriptor fd d w') := by
  rw [setDescriptor_eq, setDescriptor_eq]
  cases hget : w.session.table.get fd with
  | error errno =>
    -- there is nothing to be replaced
    rw [DescriptorTable.set_of_get_error hget,
      DescriptorTable.set_of_get_error (h.entry.trans hget)]
    exact .ok () h
  | ok old =>
    have hset := DescriptorTable.get_set_self (d := d) hget
    have hset' := DescriptorTable.get_set_self (d := d) (h.entry.trans hget)
    refine .ok () ⟨h.memory, hset'.trans hset.symm, fun hstdin => ?_, h.options, h.events⟩
    cases hset.symm.trans hstdin
    exact h.queue (hd rfl)

theorem localTo_setFile (path : String) (offset : UInt64) (content : Option Bytes)
    (status : FdStat) : LocalTo fd place (setDescriptor fd (.file path offset content status)) :=
  fun _ _ h => sameEnd_setDescriptor h nofun

/-! ## Bodies

For a descriptor that reads from standard input the queue belongs to what it stands for; for any
other the queues need not agree, and nothing is asked of them. -/

/-- `fdFdstatGet` reads the status off the entry and the filesystem, and stores it. -/
theorem localTo_fdFdstatGet (host : Host) (address : UInt32) :
    LocalTo fd place (fdFdstatGet host fd address) := by
  refine (Respects.sequential _).leadsTo.fdFdstatGet localTo_descriptor (localTo_fileStat host)
    fun _ => ?_
  exact localTo_access (Access.overlooks_write _ _)

/-- `fdFdstatSetFlags` puts flags into the same entry on both sides. -/
theorem localTo_fdFdstatSetFlags (flags : UInt32) :
    LocalTo fd place (fdFdstatSetFlags fd flags) := by
  refine ((Respects.sequential _).halfWord flags).bind fun half => ?_
  intro w w' h
  rw [bind_of_ok (look_eq_ok_iff.mpr ⟨rfl, rfl⟩), bind_of_ok (look_eq_ok_iff.mpr ⟨rfl, rfl⟩),
    h.entry]
  cases hget : w.session.table.get fd with
  | error errno => exact .ok () h
  | ok d =>
    refine sameEnd_setDescriptor h fun hstdin => hget.trans ?_
    -- flags do not make a standard stream of anything
    cases d with
    | stdin => rfl
    | _ => cases hstdin

theorem localTo_fdSeek (address : UInt32) : LocalTo fd place (fdSeek fd address) := by
  intro w w' h
  unfold fdSeek
  rw [bind_of_ok (look_eq_ok_iff.mpr ⟨rfl, rfl⟩), bind_of_ok (look_eq_ok_iff.mpr ⟨rfl, rfl⟩),
    h.entry]
  exact localTo_access (Access.overlooks_write _ _) w w' h

/-- A `.stdin` entry finds the same in the queue and takes the same off. -/
theorem sameEnd_readStdin (h : w.AgreesFor fd place w')
    (hget : w.session.table.get fd = .ok .stdin) (vectors : List IoVec) :
    let x : Action UInt32 := do
      let queued ← look Session.stdin
      let moved ← access (Access.scatter vectors queued)
      change fun session => { session with stdin := session.stdin.drop moved.toNat }
      pure moved
    SameEnd (Workspace.AgreesFor fd place) (x w) (x w') := by
  intro x
  have hx (v : Workspace) : x v =
      (do
        let moved ← access (Access.scatter vectors v.session.stdin)
        change fun session => { session with stdin := session.stdin.drop moved.toNat }
        pure moved : Action UInt32) v := rfl
  rw [hx, hx, h.queue hget]
  refine (localTo_access (Access.overlooks_scatter vectors _) w w' h).bind
    fun moved t t' _ _ ht => ?_
  refine .ok moved ⟨ht.memory, ht.entry, fun hstdin => ?_, ht.options, ht.events⟩
  exact congrArg (List.drop moved.toNat) (ht.queue hstdin)

/-- `readInto` takes octets off the queue or out of the entry's own content, and both are the same
on both sides. -/
theorem localTo_readInto (host : Host) (vectors : List IoVec) :
    LocalTo fd place (readInto host fd vectors) := by
  intro w w' h
  refine (localTo_descriptor w w' h).bind fun d t t' hd _ ht => ?_
  obtain ⟨hget, rfl⟩ := descriptor_eq_ok_iff.mp hd
  cases d with
  | stdin => exact sameEnd_readStdin ht hget vectors
  | file path offset content status =>
    refine (Respects.sequential _).readFile (fun offset content => ?_) (fun source => ?_) offset
      content _ _ ht
    · exact localTo_setFile path offset content status
    · exact localTo_access (Access.overlooks_scatter vectors source)
  | _ => exact .error _ ht

/-- A read looks at its array in guest memory, and `Access.scatter` does not look at any. -/
theorem localTo_fdRead (host : Host) (address : UInt32)
    (harray : ∀ i, InArray buffers count i → ¬ place i) :
    LocalTo fd place (fdRead host fd buffers count address) := by
  exact (Respects.sequential _).fdRead (localTo_access (Access.overlooks_readIoVecs harray))
    (localTo_access (Access.overlooks_check _ _)) (localTo_readInto host) fun _ =>
      localTo_access (Access.overlooks_write _ _)

/-- `writeFrom` looks at its buffers in guest memory. -/
theorem localTo_writeFrom (hapart : ∀ v ∈ vectors, ∀ i, v.Covers i → ¬ place i) :
    LocalTo fd place (writeFrom fd vectors) := by
  have hgather : Access.Overlooks place (Access.reading fun memory => memory.gather vectors) :=
    Access.overlooks_reading fun a b h => h.gather_eq hapart
  have htext : Access.Overlooks place (Access.reading fun memory => memory.gatherText vectors) := by
    refine Access.overlooks_reading fun a b h => ?_
    simp only [Memory.gatherText, h.gather_eq hapart]
  exact (Respects.sequential _).leadsTo.writeFrom localTo_descriptor (localTo_access htext)
    (localTo_access hgather) (fun _ _ => (localTo_emit _).bind fun _ => respects_pure _)
    (fun _ _ => (localTo_emit _).bind fun _ => respects_pure _)
    fun _ n => (localTo_emit _).bind fun _ => (Respects.sequential _).word n

/-- `fdWrite` looks at the buffers that it has read from its list. -/
theorem sameEnd_fdWrite (h : w.AgreesFor fd place w') (address : UInt32)
    (harray : ∀ i, InArray buffers count i → ¬ place i)
    (hbuffers : ∀ i, w.memory.InBuffers buffers count i → ¬ place i) :
    SameEnd (Workspace.AgreesFor fd place) (fdWrite fd buffers count address w)
      (fdWrite fd buffers count address w') := by
  have hlist : SameEnd (Workspace.AgreesFor fd place) (access (Access.readIoVecs buffers count) w)
      (access (Access.readIoVecs buffers count) w') :=
    localTo_access (Access.overlooks_readIoVecs harray) w w' h
  refine hlist.bind fun vectors t t' hread _ ht => ?_
  obtain ⟨memory', hvectors, -⟩ := access_eq_ok_iff.mp hread
  -- once the list is read it is known where the buffers are
  have hrest : LocalTo fd place (do
      access (Access.check address 4)
      let moved ← writeFrom fd vectors
      access (Access.writeU32 address moved)) := by
    refine (localTo_access (Access.overlooks_check _ _)).bind fun _ => ?_
    refine (localTo_writeFrom fun v hv i hi => ?_).bind fun moved => ?_
    · exact hbuffers i ⟨vectors, memory', hvectors, v, hv, hi⟩
    · exact localTo_access (Access.overlooks_write _ _)
  exact hrest t t' ht

end Action

/-! ## Replies

What the workspaces agree about is what the replies agree about. -/

/-- Two replies agree about a descriptor and what it stands for, and about guest memory outside a
place. -/
structure Reply.AgreesFor (fd : Fd) (place : Nat → Prop) (r r' : Reply) : Prop where
  answer : r'.answer = r.answer
  memory : SameOutside place r.memory r'.memory
  entry : r'.session.table.get fd = r.session.table.get fd
  queue : r.session.table.get fd = .ok .stdin → r'.session.stdin = r.session.stdin
  stdout : Event.stdoutTexts r'.events = Event.stdoutTexts r.events
  stderr : Event.stderrTexts r'.events = Event.stderrTexts r.events

/-- `InBuffers` of a list that does not lie in the place is the same on both sides. -/
theorem Memory.SameOutside.inBuffers_iff {place : Nat → Prop} {memory memory' : Memory}
    {buffers count : UInt32} (h : SameOutside place memory memory')
    (harray : ∀ i, InArray buffers count i → ¬ place i) (i : Nat) :
    memory'.InBuffers buffers count i ↔ memory.InBuffers buffers count i := by
  have hend := Access.overlooks_readIoVecs harray memory memory' h
  unfold Memory.InBuffers
  generalize Access.readIoVecs buffers count memory = ended at hend ⊢
  generalize Access.readIoVecs buffers count memory' = ended' at hend ⊢
  cases hend with
  | ok vectors _ => simp
  | error e _ => simp

namespace Operation

open WasiHost.Action

variable {fd : Fd} {place : Nat → Prop} {w w' : Workspace} {s s' : Session}
  {memory memory' : Memory}

/-- The five bodies of `Operation`, one by one. -/
theorem sameEnd_body (op : Operation) (host : Host) (h : w.AgreesFor fd place w')
    (hreads : ∀ i, op.Reads w.memory i → ¬ place i) :
    SameEnd (Workspace.AgreesFor fd place) ((op.on fd).body host w) ((op.on fd).body host w') := by
  cases op with
  | status address => exact localTo_fdFdstatGet host address w w' h
  | setFlags flags => exact localTo_fdFdstatSetFlags flags w w' h
  | read buffers count address => exact localTo_fdRead host address hreads w w' h
  | seek offset whence address => exact localTo_fdSeek address w w' h
  | write buffers count address =>
    exact sameEnd_fdWrite h address (fun i hi => hreads i (.inl hi)) fun i hi => hreads i (.inr hi)

/-- On sessions and memories that `AgreesFor` the descriptor, and about what is read, `perform`
replies alike. -/
theorem agreesFor_perform (op : Operation) (host : Host)
    (h : Workspace.AgreesFor fd place { session := s, memory := memory, events := [] }
      { session := s', memory := memory', events := [] })
    (hreads : ∀ i, op.Reads memory i → ¬ place i) :
    Reply.AgreesFor fd place ((op.on fd).perform host s memory)
      ((op.on fd).perform host s' memory') := by
  have hend : SameEnd (Workspace.AgreesFor fd place) ((op.on fd).run host s memory)
      ((op.on fd).run host s' memory') := op.sameEnd_body host h hreads
  obtain ⟨hstdout, hstderr⟩ := Call.texts_perform host (op.on fd) s memory
  obtain ⟨hstdout', hstderr'⟩ := Call.texts_perform host (op.on fd) s' memory'
  have hreply (s : Session) (memory : Memory) : (op.on fd).perform host s memory =
      (op.on fd).reply s.options.enableTrace ((op.on fd).run host s memory) := rfl
  rw [hreply] at hstdout hstderr hstdout' hstderr' ⊢
  rw [hreply]
  -- the reply is made of how the body ends, so only the two ends are compared
  generalize (op.on fd).run host s memory = ended at *
  generalize (op.on fd).run host s' memory' = ended' at *
  cases hend with
  | ok _ hw | error _ hw =>
    refine ⟨rfl, hw.memory, hw.entry, hw.queue, ?_, ?_⟩
    · exact hstdout'.trans ((congrArg Prod.fst hw.texts_eq).trans hstdout.symm)
    · exact hstderr'.trans ((congrArg Prod.snd hw.texts_eq).trans hstderr.symm)

/-! ## What is left alone

The other side of the same: what a call for one descriptor does not touch. Guest memory is
`Call.sameOutside_perform`, for the places of these five calls, and a stream is reached from its own
number only. -/

/-- Where a call `Writes` does not depend on the place either. -/
theorem writes_iff (op : Operation) (h : SameOutside place memory memory')
    (hreads : ∀ i, op.Reads memory i → ¬ place i) (i : Nat) :
    op.Writes memory' i ↔ op.Writes memory i := by
  cases op with
  -- the buffers of a read are known by its list, which is among what it reads
  | read buffers count address => exact or_congr (h.inBuffers_iff hreads i) Iff.rfl
  | _ => exact Iff.rfl

/-- A call leaves guest memory alone outside of `Operation.Writes`. -/
theorem sameOutside_perform (op : Operation) (host : Host) (fd : Fd) (s : Session)
    (memory : Memory) :
    SameOutside (fun i => op.Writes memory i) memory
      ((op.on fd).perform host s memory).memory := by
  refine (Call.sameOutside_perform host (op.on fd) s memory).mono fun i hi => ?_
  cases op with
  | read buffers count address =>
    obtain hcell | ⟨vectors, hbuffers, w, hw, hcovers⟩ := hi
    · exact .inr hcell
    · -- the part of a buffer that is filled is inside the buffer
      obtain ⟨v, hv, hsub⟩ := IoVec.exists_mem_of_mem_filled hw
      obtain ⟨memory', hlist⟩ := readIoVecs_of_buffers? hbuffers
      exact .inl ⟨vectors, memory', hlist, v, hv, hsub i hcovers⟩
  | _ => exact hi

/-- What a descriptor sends reaches the stream that has its number: a `Sound` table has `.stdout`
and `.stderr` under no other. -/
theorem texts_of_sent {d : Descriptor} {data : Bytes} {event : Event} (hsound : s.table.Sound)
    (hget : s.table.get fd = .ok d) (hsent : d.sent? data = some event) :
    (fd ≠ Fd.stdout → Event.stdoutTexts [event] = []) ∧
      (fd ≠ Fd.stderr → Event.stderrTexts [event] = []) := by
  obtain ⟨_, hopened⟩ | ⟨_, rfl⟩ | ⟨rfl, rfl⟩ | ⟨rfl, rfl⟩ | ⟨_, rfl⟩ := hsound.cases_of_get hget
  · cases hopened with
    | file path offset content status =>
      cases hsent
      exact ⟨fun _ => rfl, fun _ => rfl⟩
    | directory => cases hsent
  · cases hsent
  · cases hsent
    exact ⟨fun hfd => absurd rfl hfd, fun _ => rfl⟩
  · cases hsent
    exact ⟨fun _ => rfl, fun hfd => absurd rfl hfd⟩
  · cases hsent

/-- By kind of call: the quiet ones and `fdRead` let out nothing, and `fdWrite` what its descriptor
sends. -/
theorem texts_of_run (op : Operation) {host : Host} (hsound : s.table.Sound)
    (hrun : (op.on fd).run host s memory = .ok () w) :
    (fd ≠ Fd.stdout → w.texts.1 = []) ∧ (fd ≠ Fd.stderr → w.texts.2 = []) := by
  -- four of the five operations let out no text at all
  have hsilent (h : w.texts = ([], [])) :
      (fd ≠ Fd.stdout → w.texts.1 = []) ∧ (fd ≠ Fd.stderr → w.texts.2 = []) := by
    rw [h]
    exact ⟨fun _ => rfl, fun _ => rfl⟩
  cases op with
  | status address =>
    exact hsilent (congrArg Prod.snd ((quiet_fdFdstatGet host fd address).outer.ok hrun))
  | setFlags flags =>
    obtain rfl | ⟨d, _, rfl⟩ := fdFdstatSetFlags_eq_ok hrun
    · exact hsilent rfl
    · exact hsilent rfl
  | read buffers count address =>
    obtain ⟨hevents, -⟩ := fdRead_eq_ok hrun
    exact hsilent (by rw [Workspace.texts, hevents]; rfl)
  | seek offset whence address =>
    exact hsilent (congrArg Prod.snd ((quiet_fdSeek fd address).outer.ok hrun))
  | write buffers count address =>
    cases memory with
    | detached =>
      -- without a memory no write succeeds
      obtain ⟨e, herror⟩ := needsMemory_fdWrite fd buffers count address
        { session := s, memory := .detached, events := [] } rfl
      cases hrun.symm.trans herror
    | attached linear =>
      obtain ⟨_, _, _, _, d, event, hget, hsent, rfl⟩ :=
        (fdWrite_eq_ok_iff_arrayInside rfl).mp hrun
      exact texts_of_sent hsound hget hsent

/-- `perform` lets texts out on a stream from under its own number only. -/
theorem texts_perform (op : Operation) (host : Host) (fd : Fd) (hsound : s.table.Sound)
    (memory : Memory) :
    (fd ≠ Fd.stdout → Event.stdoutTexts ((op.on fd).perform host s memory).events = []) ∧
      (fd ≠ Fd.stderr → Event.stderrTexts ((op.on fd).perform host s memory).events = []) := by
  obtain ⟨hstdout, hstderr⟩ := Call.texts_perform host (op.on fd) s memory
  rw [hstdout, hstderr]
  cases hrun : (op.on fd).run host s memory with
  | ok u w => exact op.texts_of_run hsound hrun
  | error e w =>
    -- a call that fails has let out no text at all
    obtain ⟨htexts, -⟩ := Call.keeps_of_error hsound hrun
    rw [endState, htexts]
    exact ⟨fun _ => rfl, fun _ => rfl⟩

end Operation

end WasiHost
