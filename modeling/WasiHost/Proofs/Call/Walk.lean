import WasiHost.Call.Perform
import WasiHost.Proofs.Memory.Gentle
import WasiHost.Proofs.Session.Action

/-!
# Bodies of host calls, step by step

A body is a sequence of steps, and most of what is said of it is handed on from its steps by
`Sequential` or `LeadsTo`. Here the steps of each body are followed once, for any such property: a
lemma about a body asks for what has to be known of its steps. In `Sequential` all steps have one
property; in `LeadsTo` those that look have one property and the one that stores has another, which
need not hold of the others.

* **`LeadsTo.fdFdstatGet`** and its like — the bodies that look at something and then store it.
* **`Sequential.readInto`**, **`LeadsTo.writeFrom`**, **`Sequential.pathOpen`** and their like — the
  bodies that change more than guest memory.
* **`Pervades`**, **`Pervades.body`** — what has to be known of a property that is to hold of all
  bodies, and that it then does. -/

namespace WasiHost

open WasiHost.Action

/-! ## Checks of width

Both checks are `guarded` by a bound and give back the number in fewer bits. -/

namespace Action

variable {α : Type} {w w' : Workspace}

/-- A number that is let through under a condition is refused without doing anything, or is what it
is. `word` and `halfWord` are of this kind. -/
theorem guarded_eq_ok_iff {p : Prop} [Decidable p] {a b : α} {errno : ErrNo} :
    (if p then pure a else refuse errno : Action α) w = .ok b w' ↔ p ∧ b = a ∧ w' = w := by
  by_cases h : p
  · rw [if_pos h, and_iff_right h]
    simp only [pure, EStateM.pure, EStateM.Result.ok.injEq, eq_comm]
  · rw [if_neg h]
    constructor
    · intro hrefused
      cases hrefused
    · rintro ⟨hp, _⟩
      exact absurd hp h

/-- A number passes `word` if it fits in 32 bits, and comes out as it was. -/
theorem word_eq_ok_iff {n : Nat} {m : UInt32} :
    word n w = .ok m w' ↔ n < UInt32.size ∧ m = UInt32.ofNat n ∧ w' = w :=
  guarded_eq_ok_iff

theorem halfWord_eq_ok_iff {n : UInt32} {half : UInt16} :
    halfWord n w = .ok half w' ↔ n.toNat < UInt16.size ∧ half = n.toUInt16 ∧ w' = w :=
  guarded_eq_ok_iff

/-! ## Revealing a number

`reveal` stores a number, and closes the descriptor again if that fails. It is no sequence, so its
ends are told here once. -/

/-- `reveal` gives a number that cannot be stored back, and the failure is that of storing it. -/
theorem reveal_of_error {fd : Fd} {address : UInt32} {e : CallError}
    (h : access (Access.writeU32 address fd) w = .error e w') :
    reveal fd address w = .error e (endState (closeDescriptor fd w')) := by
  unfold reveal
  rw [h]
  dsimp only
  -- whether the descriptor can be closed or not, the failure is the same
  cases closeDescriptor fd w' <;> rfl

theorem reveal_of_ok {fd : Fd} {address : UInt32}
    (h : access (Access.writeU32 address fd) w = .ok () w') : reveal fd address w = .ok () w' := by
  unfold reveal
  rw [h]

/-- `reveal` ends where storing the number ends, or where `closeDescriptor` after that does. -/
theorem endState_reveal_cases (fd : Fd) (address : UInt32) (w : Workspace) :
    endState (reveal fd address w) = endState (access (Access.writeU32 address fd) w) ∨
      endState (reveal fd address w) =
        endState (closeDescriptor fd (endState (access (Access.writeU32 address fd) w))) := by
  cases h : access (Access.writeU32 address fd) w with
  | ok u w₁ => exact .inl (by rw [reveal_of_ok h])
  | error e w₁ => exact .inr (by rw [reveal_of_error h]; rfl)

/-- What is kept by storing the number and by closing the descriptor is kept by `reveal`. -/
theorem keeps_reveal {γ : Type} {part : Workspace → γ} {fd : Fd} {address : UInt32}
    (hstore : Keeps part (access (Access.writeU32 address fd)))
    (hclose : Keeps part (closeDescriptor fd)) : Keeps part (reveal fd address) := by
  intro w
  rcases endState_reveal_cases fd address w with h | h
  · rw [h, hstore w]
  · rw [h, hclose _, hstore w]

end Action

/-! ## Properties of all steps

Nothing is asked of a step that gives a value or refuses: that much every `Sequential` property
knows. -/

/-- Whether an event is a line of the trace. -/
def Event.isTrace : Event → Bool
  | log record => record.source = .trace
  | stdout _ | stderr _ => false

namespace Sequential

variable {α : Type} {P : ∀ {α : Type}, Action α → Prop} (hP : Sequential P)

include hP

theorem guarded {p : Prop} [Decidable p] (a : α) (errno : ErrNo) :
    P (if p then Pure.pure a else Action.refuse errno) := by
  split
  · exact hP.pure a
  · exact hP.refuse errno

theorem word (n : Nat) : P (Action.word n) :=
  hP.guarded _ _

theorem halfWord (n : UInt32) : P (Action.halfWord n) :=
  hP.guarded _ _

theorem checkClock {clock : UInt32} (hlook : P (look fun s => s.checkClock clock)) :
    P (Action.checkClock clock) :=
  hP.bind hlook fun _ => hP.lift _

theorem fileStat {host : Host} {path : String}
    (hlook : P (look fun s => s.fileStat host.fileSystem path)) : P (Action.fileStat host path) :=
  hP.bind hlook fun _ => hP.lift _

theorem descriptor {fd : Fd} (htable : P (look Session.table)) : P (Action.descriptor fd) :=
  hP.bind htable fun _ => hP.lift _

theorem resolve {fd : Fd} {path pathLength : UInt32}
    (htext : P (access (Access.readText path pathLength)))
    (hlook : ∀ text, P (look fun s => s.resolve fd text)) :
    P (Action.resolve fd path pathLength) :=
  hP.bind htext fun text => hP.bind (hlook text) fun _ => hP.lift _

theorem preopenedName {fd : Fd} (hdescriptor : P (Action.descriptor fd)) :
    P (Action.preopenedName fd) := by
  refine hP.bind hdescriptor fun d => ?_
  cases d with
  | preopened name => exact hP.pure name
  | _ => exact hP.refuse _

theorem openDescriptor (htable : P (look Session.table))
    (hchange : ∀ table, P (change fun s => { s with table := table }))
    (hemit : ∀ fd, P (emit [.log (DescriptorTable.allocated fd)])) (d : Descriptor) :
    P (Action.openDescriptor d) := by
  refine hP.bind htable fun table => ?_
  refine hP.bind (hP.lift _) fun opened => ?_
  refine hP.bind (hchange opened.2) fun _ => ?_
  exact hP.bind (hemit opened.1) fun _ => hP.pure _

theorem closeDescriptor {fd : Fd} (htable : P (look Session.table))
    (hchange : ∀ table, P (change fun s => { s with table := table }))
    (hemit : ∀ records : List LogRecord, P (emit (records.map .log))) :
    P (Action.closeDescriptor fd) := by
  refine hP.bind htable fun table => ?_
  refine hP.bind (hP.lift _) fun closed => ?_
  exact hP.bind (hchange closed.1) fun _ => hemit closed.2

/-- `storeSizes` stores one size after the other, so storing the second may fail after the first. -/
theorem storeSizes {countAddress sizeAddress : UInt32}
    (hcount : ∀ n, P (access (Access.writeU32 countAddress n)))
    (hsize : ∀ n, P (access (Access.writeU32 sizeAddress n))) (count size : Nat) :
    P (Action.storeSizes count size countAddress sizeAddress) := by
  refine hP.bind (hP.word count) fun count => ?_
  refine hP.bind (hcount count) fun _ => ?_
  exact hP.bind (hP.word size) fun size => hsize size

/-! ### Reading -/

/-- `load` gives a content back that is there; otherwise it is read and kept. -/
theorem load {host : Host} {fd : Fd} {path : String} {offset : UInt64} {status : FdStat}
    (hset : ∀ content, P (setDescriptor fd (.file path offset content status)))
    (content : Option Bytes) : P (Action.load host fd path offset content status) := by
  cases content with
  | some bytes => exact hP.pure bytes
  | none =>
    refine hP.bind (hP.lift _) fun bytes => ?_
    exact hP.bind (hset (some bytes)) fun _ => hP.pure bytes

/-- What `readInto` does with an open file. -/
theorem readFile {host : Host} {fd : Fd} {path : String} {status : FdStat} {vectors : List IoVec}
    (hset : ∀ offset content, P (setDescriptor fd (.file path offset content status)))
    (hscatter : ∀ source, P (access (Access.scatter vectors source))) (offset : UInt64)
    (content : Option Bytes) :
    P (do
      let bytes ← Action.load host fd path offset content status
      let moved ← access (Access.scatter vectors (bytes.drop offset.toNat))
      setDescriptor fd (.file path (offset + moved.toUInt64) (some bytes) status)
      Pure.pure moved) := by
  refine hP.bind (hP.load (hset offset) content) fun bytes => ?_
  refine hP.bind (hscatter _) fun moved => ?_
  exact hP.bind (hset _ _) fun _ => hP.pure moved

/-- `readInto` goes by what the descriptor is. -/
theorem readInto {host : Host} {fd : Fd} {vectors : List IoVec}
    (hdescriptor : P (Action.descriptor fd)) (hqueue : P (look Session.stdin))
    (htake : ∀ n, P (change fun s => { s with stdin := s.stdin.drop n }))
    (hset : ∀ d, P (setDescriptor fd d))
    (hscatter : ∀ source, P (access (Access.scatter vectors source))) :
    P (Action.readInto host fd vectors) := by
  refine hP.bind hdescriptor fun d => ?_
  cases d with
  | stdin =>
    refine hP.bind hqueue fun queued => ?_
    refine hP.bind (hscatter queued) fun moved => ?_
    exact hP.bind (htake moved.toNat) fun _ => hP.pure moved
  | file path offset content status =>
    exact hP.readFile (fun offset content => hset _) hscatter offset content
  | _ => exact hP.refuse _

/-- `fdRead` is its list, its check, the move and the store. -/
theorem fdRead {host : Host} {fd : Fd} {buffers count address : UInt32}
    (hlist : P (access (Access.readIoVecs buffers count)))
    (hcheck : P (access (Access.check address 4)))
    (hread : ∀ vectors, P (Action.readInto host fd vectors))
    (hstore : ∀ n, P (access (Access.writeU32 address n))) :
    P (Action.fdRead host fd buffers count address) := by
  refine hP.bind hlist fun vectors => ?_
  refine hP.bind hcheck fun _ => ?_
  exact hP.bind (hread vectors) fun moved => hstore moved

/-! ### Writing -/

/-- `fdWrite` has the same four steps. -/
theorem fdWrite {fd : Fd} {buffers count address : UInt32}
    (hlist : P (access (Access.readIoVecs buffers count)))
    (hcheck : P (access (Access.check address 4)))
    (hwrite : ∀ vectors, P (Action.writeFrom fd vectors))
    (hstore : ∀ n, P (access (Access.writeU32 address n))) :
    P (Action.fdWrite fd buffers count address) := by
  refine hP.bind hlist fun vectors => ?_
  refine hP.bind hcheck fun _ => ?_
  exact hP.bind (hwrite vectors) fun moved => hstore moved

/-! ### Opening, and the end -/

/-- `pathOpen` checks two widths, resolves, asks, opens and reveals. -/
theorem pathOpen {host : Host} {fd : Fd} {path pathLength address : UInt32}
    (hresolve : P (Action.resolve fd path pathLength)) (hopen : ∀ d, P (Action.openDescriptor d))
    (hreveal : ∀ new, P (Action.reveal new address)) (openFlags : OpenFlags)
    (rightsBase rightsInheriting : Rights) (fdFlags : UInt32) :
    P (Action.pathOpen host fd path pathLength openFlags rightsBase rightsInheriting fdFlags
      address) := by
  refine hP.bind (hP.halfWord openFlags) fun _ => ?_
  refine hP.bind (hP.halfWord fdFlags) fun flags => ?_
  refine hP.bind hresolve fun name => ?_
  refine hP.bind (hP.lift _) fun stat => ?_
  split
  · exact hP.refuse _
  · exact hP.bind (hopen _) fun new => hreveal new

theorem procExit {code : UInt32}
    (hemit : ∀ event : Event, event.isTrace = false → P (emit [event]))
    (hchange : P (change fun s => { s with exitCode := some code })) :
    P (Action.procExit code) := by
  refine hP.bind (hemit _ rfl) fun _ => ?_
  exact hP.bind hchange fun _ => hemit _ rfl

end Sequential

/-! ## Bodies that look and then store

Each of these bodies is made of steps with the property `Q` and ends in one with the property `P`.
What `Q` is asked for are the steps that look, and `P` is asked for the store. -/

namespace LeadsTo

variable {Q P : ∀ {α : Type}, Action α → Prop} (h : LeadsTo Q P)

include h

theorem clockResGet {clock address : UInt32} (hcheck : Q (checkClock clock))
    (hstore : ∀ n, P (access (Access.writeU64 address n))) :
    P (Action.clockResGet clock address) :=
  h.bind hcheck fun _ => hstore _

theorem clockTimeGet {host : Host} {clock address : UInt32} (hcheck : Q (checkClock clock))
    (hstore : ∀ n, P (access (Access.writeU64 address n))) (precision : UInt64) :
    P (Action.clockTimeGet host clock precision address) := by
  refine h.bind hcheck fun _ => ?_
  exact h.bind (h.sequential.lift _) fun _ => hstore _

/-- `fdFdstatGet` stores the status of a file or a directory after the filesystem was asked, any
other at once. -/
theorem fdFdstatGet {host : Host} {fd : Fd} {address : UInt32} (hdescriptor : Q (descriptor fd))
    (hstat : ∀ path, Q (fileStat host path))
    (hstore : ∀ status : FdStat, P (access (Access.write address status.pack))) :
    P (Action.fdFdstatGet host fd address) := by
  refine h.bind hdescriptor fun d => ?_
  have hstatus (status : FdStat) :
      P (Pure.pure status >>= fun status => access (Access.write address status.pack)) :=
    h.bind (h.sequential.pure _) hstore
  -- of what was opened the filesystem is asked first
  cases d with
  | file path offset content status => exact h.bind (hstat path) fun stat => hstatus _
  | directory path status => exact h.bind (hstat path) fun stat => hstatus _
  | _ => exact hstatus _

theorem fdFdstatSetFlags {fd : Fd} (htable : Q (look Session.table))
    (hset : ∀ d, P (setDescriptor fd d)) (hnone : P (Pure.pure () : Action Unit))
    (flags : UInt32) : P (Action.fdFdstatSetFlags fd flags) := by
  refine h.bind (h.sequential.halfWord flags) fun half => ?_
  refine h.bind htable fun table => ?_
  split
  · exact hset _
  · exact hnone

theorem fdPrestatGet {fd : Fd} {address : UInt32} (hdescriptor : Q (descriptor fd))
    (hstore : ∀ prestat : Prestat, P (access (Access.write address prestat.pack))) :
    P (Action.fdPrestatGet fd address) := by
  refine h.bind (h.sequential.preopenedName hdescriptor) fun name => ?_
  exact h.bind (h.sequential.word _) fun _ => hstore _

/-- `fdPrestatDirName` refuses a name that is longer than its buffer, so what is stored fits
there. -/
theorem fdPrestatDirName {fd : Fd} {address size : UInt32} (hdescriptor : Q (descriptor fd))
    (hstore : ∀ data : Bytes, data.length ≤ size.toNat → P (access (Access.write address data))) :
    P (Action.fdPrestatDirName fd address size) := by
  refine h.bind (h.sequential.preopenedName hdescriptor) fun name => ?_
  split
  · exact h.refuse _
  · next hfits => exact hstore _ (Nat.le_of_not_lt hfits)

theorem fdSeek {fd : Fd} {address : UInt32} (htable : Q (look Session.table))
    (hstore : ∀ n, P (access (Access.writeU64 address n))) : P (Action.fdSeek fd address) :=
  h.bind htable fun _ => hstore _

theorem pathFilestatGet {host : Host} {fd : Fd} {path pathLength address : UInt32}
    (hresolve : Q (resolve fd path pathLength)) (hstat : ∀ path, Q (fileStat host path))
    (hstore : ∀ stat : FileStat, P (access (Access.write address stat.pack))) :
    P (Action.pathFilestatGet host fd path pathLength address) := by
  refine h.bind hresolve fun name => ?_
  exact h.bind (hstat name) fun stat => hstore stat

/-- `writeFrom` gathers first, and lets the text or a record of the log out last. -/
theorem writeFrom {fd : Fd} {vectors : List IoVec} (hdescriptor : Q (descriptor fd))
    (htext : Q (access (Access.reading fun memory => memory.gatherText vectors)))
    (hbytes : Q (access (Access.reading fun memory => memory.gather vectors)))
    (hout : ∀ text (n : UInt32), P (emit [.stdout text] >>= fun _ => Pure.pure n))
    (herr : ∀ text (n : UInt32), P (emit [.stderr text] >>= fun _ => Pure.pure n))
    (hlog : ∀ path n, P (emit [.log (dropped path n)] >>= fun _ => word n)) :
    P (Action.writeFrom fd vectors) := by
  refine h.bind hdescriptor fun d => ?_
  cases d with
  | stdout => exact h.bind htext fun gathered => hout _ _
  | stderr => exact h.bind htext fun gathered => herr _ _
  | file path offset content status => exact h.bind hbytes fun bytes => hlog _ _
  | _ => exact h.refuse _

end LeadsTo

/-! ## Properties of all bodies

A property of all bodies may be as strong as the steps of bodies allow, and these do not do just
anything: what they look at is there with tracing off as well, what they let out is no line of the
trace, and no access is fatal on an attached memory. `Pervades` asks for the property of such steps
only. -/

def Options.untraced (options : Options) : Options :=
  { options with enableTrace := false }

/-- The session with tracing off. -/
def Session.untraced (s : Session) : Session :=
  { s with options := s.options.untraced }

/-- The property holds of the steps that bodies are made of. -/
structure Pervades (P : ∀ {α : Type}, Action α → Prop) : Prop extends Sequential P where
  look : ∀ {α : Type} {f : Session → α}, (∀ s : Session, f s.untraced = f s) → P (Action.look f)
  access : ∀ {α : Type} {x : Access α}, Gentle id x → P (Action.access x)
  changeTable : ∀ f : DescriptorTable → DescriptorTable,
    P (change fun s => { s with table := f s.table })
  takeQueued : ∀ n, P (change fun s => { s with stdin := s.stdin.drop n })
  emit : ∀ event : Event, event.isTrace = false → P (Action.emit [event])
  closeDescriptor : ∀ fd, P (Action.closeDescriptor fd)
  reveal : ∀ fd address, P (Action.reveal fd address)

namespace Pervades

variable {P : ∀ {α : Type}, Action α → Prop} (h : Pervades P) {host : Host} {fd : Fd}

include h

theorem write (address : UInt32) (data : Bytes) : P (Action.access (Access.write address data)) :=
  h.access (Access.gentle_write address data)

theorem descriptor (fd : Fd) : P (Action.descriptor fd) :=
  h.toSequential.descriptor (h.look fun _ => rfl)

theorem setDescriptor (fd : Fd) (d : Descriptor) : P (Action.setDescriptor fd d) :=
  h.changeTable fun table => table.set fd d

theorem checkClock (clock : UInt32) : P (Action.checkClock clock) :=
  h.toSequential.checkClock (h.look fun _ => rfl)

theorem fileStat (host : Host) (path : String) : P (Action.fileStat host path) :=
  h.toSequential.fileStat (h.look fun _ => rfl)

theorem resolve (fd : Fd) (path pathLength : UInt32) : P (Action.resolve fd path pathLength) :=
  h.toSequential.resolve (h.access (Access.gentle_readText _ _)) fun _ => h.look fun _ => rfl

/-- A startup call stores the strings of a list, or their sizes. Of the options only the strings are
looked at. -/
theorem startup {α : Type} {f : Session → α} (hf : ∀ s : Session, f s.untraced = f s)
    {g : α → Action Unit} (hg : ∀ a, P (g a)) : P (Action.look f >>= g) :=
  h.bind (h.look hf) hg

theorem storeSizes (count size : Nat) (countAddress sizeAddress : UInt32) :
    P (Action.storeSizes count size countAddress sizeAddress) :=
  h.toSequential.storeSizes (fun _ => h.write _ _) (fun _ => h.write _ _) count size

theorem readInto (host : Host) (fd : Fd) (vectors : List IoVec) :
    P (Action.readInto host fd vectors) :=
  h.toSequential.readInto (h.descriptor fd) (h.look fun _ => rfl) h.takeQueued (h.setDescriptor fd)
    fun source => h.access (Access.gentle_scatter vectors source)

theorem writeFrom (fd : Fd) (vectors : List IoVec) : P (Action.writeFrom fd vectors) :=
  h.toSequential.leadsTo.writeFrom (h.descriptor fd)
    (h.access (Access.gentle_reading (Memory.failsGently_gatherText vectors)))
    (h.access (Access.gentle_reading (Memory.failsGently_gather vectors)))
    (fun _ n => h.bind (h.emit _ rfl) fun _ => h.pure n)
    (fun _ n => h.bind (h.emit _ rfl) fun _ => h.pure n)
    (fun _ n => h.bind (h.emit _ rfl) fun _ => h.toSequential.word n)

theorem openDescriptor (d : Descriptor) : P (Action.openDescriptor d) :=
  h.toSequential.openDescriptor (h.look fun _ => rfl) (fun table => h.changeTable fun _ => table)
    (fun _ => h.emit _ rfl) d

/-- The property holds of every body. That of `procExit` changes something that no other changes, so
it is up to the property. -/
theorem body (host : Host) {call : Call}
    (hexit : ∀ code, call = .procExit code → P (Action.procExit code)) : P (call.body host) := by
  -- where a call looks first and stores last, what it looks at has the property as well
  have hlook := h.toSequential.leadsTo
  cases call with
  | argsGet pointers strings =>
    exact h.startup (f := fun s => s.options.argumentStrings) (fun _ => rfl) fun strings' =>
      h.access (Access.gentle_writeStrings strings' strings pointers)
  | argsSizesGet count size =>
    exact h.startup (f := fun s => (s.options.arguments.length, s.options.argumentsSize))
      (fun _ => rfl) fun sizes => h.storeSizes sizes.1 sizes.2 count size
  | environGet pointers strings =>
    exact h.startup (f := fun s => s.options.environmentStrings) (fun _ => rfl) fun strings' =>
      h.access (Access.gentle_writeStrings strings' strings pointers)
  | environSizesGet count size =>
    exact h.startup (f := fun s => (s.options.environment.length, s.options.environmentSize))
      (fun _ => rfl) fun sizes => h.storeSizes sizes.1 sizes.2 count size
  | clockResolution clock => exact h.checkClock clock
  | clockResGet clock address => exact hlook.clockResGet (h.checkClock clock) fun _ => h.write _ _
  | clockTimeGet clock precision address =>
    exact hlook.clockTimeGet (h.checkClock clock) (fun _ => h.write _ _) precision
  | fdClose fd => exact h.closeDescriptor fd
  | fdFdstatGet fd address =>
    exact hlook.fdFdstatGet (h.descriptor fd) (h.fileStat host) fun _ => h.write _ _
  | fdFdstatSetFlags fd flags =>
    exact hlook.fdFdstatSetFlags (h.look fun _ => rfl) (h.setDescriptor fd) (h.pure _) flags
  | fdPrestatGet fd address => exact hlook.fdPrestatGet (h.descriptor fd) fun _ => h.write _ _
  | fdPrestatDirName fd address size =>
    exact hlook.fdPrestatDirName (h.descriptor fd) fun _ _ => h.write _ _
  | fdRead fd buffers count address =>
    exact h.toSequential.fdRead (h.access (Access.gentle_readIoVecs _ _))
      (h.access (Access.gentle_check _ _)) (h.readInto host fd) fun _ => h.write _ _
  | fdSeek fd offset whence address =>
    exact hlook.fdSeek (h.look fun _ => rfl) fun _ => h.write _ _
  | fdWrite fd buffers count address =>
    exact h.toSequential.fdWrite (h.access (Access.gentle_readIoVecs _ _))
      (h.access (Access.gentle_check _ _)) (h.writeFrom fd) fun _ => h.write _ _
  | pathFilestatGet fd flags path pathLength address =>
    exact hlook.pathFilestatGet (h.resolve fd path pathLength) (h.fileStat host) fun _ =>
      h.write _ _
  | pathOpen fd dirFlags path pathLength openFlags rightsBase rightsInheriting fdFlags address =>
    exact h.toSequential.pathOpen (h.resolve fd path pathLength) h.openDescriptor
      (fun new => h.reveal new address) openFlags rightsBase rightsInheriting fdFlags
  | procExit code => exact hexit code rfl
  | randomGet address length => exact h.access (Access.gentle_overwrite _ _ _)

end Pervades

end WasiHost
