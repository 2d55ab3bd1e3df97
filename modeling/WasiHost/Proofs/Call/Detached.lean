import WasiHost.Proofs.Call.Answer
import WasiHost.Proofs.Session.Run

/-!
# Calls without a memory

As long as no guest is attached there is nothing to read from and nowhere to write to. A call that
takes an address then fails at the first access that it makes, and before that it has only looked.
The one way around is a list of strings that is empty: nothing of it is written, so no memory is
missed.

* **`NeedsMemory`** — a computation that fails without a memory, and has done nothing. It is enough
  that one step of it does, if those before only look: `NeedsMemory.bind`, `NeedsMemory.leadsTo`.
* **`Action.writesStrings_detached`** — strings are missed unless there are none.
* **`Call.body_detached`** — the bodies of all calls that take an address.
* **`Call.gives_nothing_detached`** — what the guest is answered, and what becomes of the session.
-/

namespace WasiHost

variable {σ α β : Type}

/-- Without a memory the computation fails, and has done nothing. -/
def NeedsMemory (part : σ → Memory) (x : EStateM CallError σ α) : Prop :=
  ∀ s, part s = .detached → ∃ e, x s = .error e s

section

variable {part : σ → Memory} {x : EStateM CallError σ α} {f : α → EStateM CallError σ β}

theorem NeedsMemory.bind (hx : NeedsMemory part x) (f : α → EStateM CallError σ β) :
    NeedsMemory part (x >>= f) := by
  intro s hs
  obtain ⟨e, herror⟩ := hx s hs
  exact ⟨e, bind_of_error herror⟩

/-- What comes before `NeedsMemory` must not do anything but look. -/
theorem NeedsMemory.after (hx : Keeps id x) (hf : ∀ a, NeedsMemory part (f a)) :
    NeedsMemory part (x >>= f) := by
  intro s hs
  cases h : x s with
  | ok a t =>
    obtain rfl : t = s := hx.ok h
    rw [bind_of_ok h]
    exact hf a t hs
  | error e t =>
    obtain rfl : t = s := hx.failsClean s e t h
    exact ⟨e, bind_of_error h⟩

/-- The walk of a body: `Keeps id` may come before `NeedsMemory`. -/
theorem NeedsMemory.leadsTo (part : σ → Memory) :
    LeadsTo (Keeps (id : σ → σ)) (NeedsMemory part) where
  sequential := Keeps.sequential id
  refuse errno := fun _ _ => ⟨.guest errno, rfl⟩
  bind hx hf := .after hx hf

end

/-! ## Guest memory

Without a memory both kinds of accesses, `Access.reading` and `Access.updating`, fail as their
functions do on `Memory.detached`. -/

namespace Access

/-- `reading` fails without a memory if the question that is asked of it does. -/
theorem needsMemory_reading {f : Memory → Except CallError α} {e : CallError}
    (h : f .detached = .error e) : NeedsMemory id (reading f) := by
  rintro _ rfl
  refine ⟨e, ?_⟩
  rw [reading, h]

theorem needsMemory_updating {f : Memory → Except CallError Memory} {e : CallError}
    (h : f .detached = .error e) : NeedsMemory id (updating f) := by
  rintro _ rfl
  refine ⟨e, ?_⟩
  rw [updating, h]

/-- `write` fails without a memory: octets need one, or are too many for any. -/
theorem needsMemory_write (address : UInt32) (data : Bytes) :
    NeedsMemory id (write address data) := by
  by_cases hlength : data.length < UInt32.size
  · -- short enough for a memory, if there were one
    have hdetached : Memory.write .detached address data = .error (.fatal .noMemory) := by
      rw [Memory.write, if_pos hlength]
    exact needsMemory_updating hdetached
  · -- too long for any memory, which is found out first
    have hfault : Memory.write .detached address data = .error (.guest .fault) := by
      rw [Memory.write, if_neg hlength]
    exact needsMemory_updating hfault

/-- `writeStrings` misses the memory as soon as there is a string to write. -/
theorem needsMemory_writeStrings {strings : List Bytes} (h : strings ≠ [])
    (buffer pointers : UInt32) :
    NeedsMemory id (writeStrings strings buffer pointers) := by
  cases strings with
  | nil => exact absurd rfl h
  | cons string rest => exact (needsMemory_write buffer string).bind _

end Access

namespace Action

theorem needsMemory_access {x : Access α} (h : NeedsMemory id x) :
    NeedsMemory Workspace.memory (access x) := by
  intro w hw
  obtain ⟨e, herror⟩ := h w.memory hw
  exact ⟨e, access_eq_error_iff.mpr ⟨w.memory, herror, rfl⟩⟩

theorem needsMemory_store (address : UInt32) (data : Bytes) :
    NeedsMemory Workspace.memory (access (Access.write address data)) :=
  needsMemory_access (Access.needsMemory_write address data)

theorem needsMemory_check (address length : UInt32) :
    NeedsMemory Workspace.memory (access (Access.check address length)) :=
  needsMemory_access (Access.needsMemory_reading rfl)

/-- `resolve` reads even the empty path from somewhere. -/
theorem needsMemory_resolve (fd : Fd) (path pathLength : UInt32) :
    NeedsMemory Workspace.memory (resolve fd path pathLength) := by
  have htext : NeedsMemory id (Access.readText path pathLength) :=
    (Access.needsMemory_reading rfl).bind _
  exact (needsMemory_access htext).bind _

/-! ## Error numbers

A failed clock call is answered its error number itself. If that could be the number of success, the
guest would take the failure for one, so the numbers are followed through the bodies of these calls:
`Tells`. -/

/-- The error numbers that a computation fails with are of a kind. -/
def Tells (P : ErrNo → Prop) (x : Action α) : Prop :=
  ∀ w errno w', x w = .error (.guest errno) w' → P errno

variable {P : ErrNo → Prop}

/-- `Tells` of a sequence is that of its parts: an error number comes from one of them. -/
theorem Tells.bind {x : Action α} {f : α → Action β} (hx : Tells P x) (hf : ∀ a, Tells P (f a)) :
    Tells P (x >>= f) := by
  intro w errno w' h
  rcases bind_eq_error_iff.mp h with h | ⟨a, t, _, h⟩
  · exact hx w errno w' h
  · exact hf a t errno w' h

theorem tells_lift {outcome : Except ErrNo α} (h : ∀ errno, outcome = .error errno → P errno) :
    Tells P (lift outcome : Action α) := by
  intro w errno w' hlift
  cases outcome with
  | ok a => cases hlift
  | error _ =>
    cases hlift
    exact h errno rfl

/-- `checkClock` refuses with one of two numbers, and neither is `success`. -/
theorem tells_checkClock (clock : UInt32) : Tells (· ≠ .success) (checkClock clock) := by
  intro w errno w' h
  have houtcome : Tells (· ≠ .success) (lift (w.session.checkClock clock)) := by
    refine tells_lift fun errno hrefused => ?_
    rw [Session.checkClock] at hrefused
    split at hrefused
    · split at hrefused
      · cases hrefused
      · cases hrefused
        decide
    · cases hrefused
      decide
  exact houtcome w errno w' h

/-- `write` can only miss its place: the number is `fault`. -/
theorem tells_store (address : UInt32) (data : Bytes) :
    Tells (· = .fault) (access (Access.write address data)) := by
  intro w errno w' h
  obtain ⟨memory, hupdate, _⟩ := access_eq_error_iff.mp h
  have hwrite : w.memory.write address data = .error (.guest errno) := by
    rw [Access.write, Access.updating] at hupdate
    cases hw : w.memory.write address data with
    | ok written =>
      rw [hw] at hupdate
      cases hupdate
    | error e =>
      rw [hw] at hupdate
      cases hupdate
      rfl
  -- of the ends of a write only a range outside memory is told to the guest
  unfold Memory.write at hwrite
  split at hwrite
  · split at hwrite
    · cases hwrite
    · split at hwrite
      · cases hwrite
      · cases hwrite
        rfl
  · cases hwrite
    rfl

/-! ## Bodies

The bodies that look before they miss the memory, by `NeedsMemory.leadsTo` and
`NeedsMemory.after`. -/

/-- `storeSizes` refuses a first number that is too large for a word; otherwise it cannot store
it. -/
theorem needsMemory_storeSizes (count size : Nat) (countAddress sizeAddress : UInt32) :
    NeedsMemory Workspace.memory (storeSizes count size countAddress sizeAddress) :=
  .after (keeps_word count) fun _ => (needsMemory_store _ _).bind _

/-- `fdRead` reads an empty list of buffers without a memory, but then there is nowhere to store the
count. -/
theorem needsMemory_fdRead (host : Host) (fd : Fd) (buffers count address : UInt32) :
    NeedsMemory Workspace.memory (fdRead host fd buffers count address) :=
  .after (keeps_access (Access.keeps_readIoVecs _ _)) fun _ => (needsMemory_check _ _).bind _

theorem needsMemory_fdWrite (fd : Fd) (buffers count address : UInt32) :
    NeedsMemory Workspace.memory (fdWrite fd buffers count address) :=
  .after (keeps_access (Access.keeps_readIoVecs _ _)) fun _ => (needsMemory_check _ _).bind _

/-- `pathOpen` checks only the widths of two arguments before it reads the path. -/
theorem needsMemory_pathOpen (host : Host) (fd : Fd) (path pathLength : UInt32)
    (openFlags : OpenFlags) (rightsBase rightsInheriting : Rights) (fdFlags address : UInt32) :
    NeedsMemory Workspace.memory
      (pathOpen host fd path pathLength openFlags rightsBase rightsInheriting fdFlags address) := by
  refine .after (keeps_halfWord openFlags) fun _ => ?_
  exact .after (keeps_halfWord fdFlags) fun _ => (needsMemory_resolve fd path pathLength).bind _

/-- `writeStrings` in a body misses the memory unless there are no strings. -/
theorem writesStrings_detached (strings : List Bytes) (buffer pointers : UInt32) {w : Workspace}
    (hw : w.memory = .detached) :
    if some strings = some [] then
      access (Access.writeStrings strings buffer pointers) w = .ok () w
    else ∃ e, access (Access.writeStrings strings buffer pointers) w = .error e w := by
  by_cases hnone : strings = []
  · subst hnone
    rw [if_pos rfl]
    exact access_eq_ok_iff.mpr ⟨w.memory, rfl, rfl⟩
  · rw [if_neg fun h => hnone (Option.some.inj h)]
    exact needsMemory_access (Access.needsMemory_writeStrings hnone buffer pointers) w hw

end Action

/-! ## Calls

`Call.takesAddress` tells the calls that need a memory from those that do not. Writing out an empty
list of strings is the exception: `Call.strings?`. -/

namespace Call

open WasiHost.Action

/-- Whether a call takes an address in guest memory. -/
def takesAddress : Call → Bool
  | clockResolution .. | fdClose .. | fdFdstatSetFlags .. | procExit .. => false
  | _ => true

/-- The strings that a call is to write, if it writes strings. -/
def strings? (options : Options) : Call → Option (List Bytes)
  | argsGet .. => some options.argumentStrings
  | environGet .. => some options.environmentStrings
  | _ => none

variable {host : Host} {call : Call} {s : Session}

/-- A call that `takesAddress` does nothing without a memory. It fails unless it is to write strings
and there are none. -/
theorem body_detached (host : Host) (haddress : call.takesAddress = true) {w : Workspace}
    (hw : w.memory = .detached) :
    if call.strings? w.session.options = some [] then call.body host w = .ok () w
    else ∃ e, call.body host w = .error e w := by
  -- all but the two string calls fail, and have no strings to write
  have hneeds {x : Action Unit} (hx : NeedsMemory Workspace.memory x) :
      if (none : Option (List Bytes)) = some [] then x w = .ok () w else ∃ e, x w = .error e w := by
    rw [if_neg nofun]
    exact hx w hw
  have hstore := NeedsMemory.leadsTo Workspace.memory
  cases call with
  | argsGet pointers strings =>
    -- no strings, no write
    exact writesStrings_detached w.session.options.argumentStrings strings pointers hw
  | environGet pointers strings =>
    exact writesStrings_detached w.session.options.environmentStrings strings pointers hw
  | argsSizesGet count size =>
    exact hneeds (.after (keeps_look _) fun _ => needsMemory_storeSizes _ _ _ _)
  | environSizesGet count size =>
    exact hneeds (.after (keeps_look _) fun _ => needsMemory_storeSizes _ _ _ _)
  | clockResGet clock address =>
    exact hneeds (hstore.clockResGet (keeps_checkClock clock) fun _ => needsMemory_store _ _)
  | clockTimeGet clock precision address =>
    exact hneeds
      (hstore.clockTimeGet (keeps_checkClock clock) (fun _ => needsMemory_store _ _) precision)
  | fdFdstatGet fd address =>
    exact hneeds (hstore.fdFdstatGet (keeps_descriptor fd) (keeps_fileStat host) fun _ =>
      needsMemory_store _ _)
  | fdPrestatGet fd address =>
    exact hneeds (hstore.fdPrestatGet (keeps_descriptor fd) fun _ => needsMemory_store _ _)
  | fdPrestatDirName fd address size =>
    exact hneeds (hstore.fdPrestatDirName (keeps_descriptor fd) fun _ _ => needsMemory_store _ _)
  | fdRead fd buffers count address =>
    exact hneeds (needsMemory_fdRead host fd buffers count address)
  | fdSeek fd offset whence address =>
    exact hneeds (hstore.fdSeek (keeps_look _) fun _ => needsMemory_store _ _)
  | fdWrite fd buffers count address => exact hneeds (needsMemory_fdWrite fd buffers count address)
  | pathFilestatGet fd flags path pathLength address =>
    exact hneeds ((needsMemory_resolve fd path pathLength).bind _)
  | pathOpen fd dirFlags path pathLength openFlags rightsBase rightsInheriting fdFlags address =>
    exact hneeds (needsMemory_pathOpen host fd path pathLength openFlags rightsBase rightsInheriting
      fdFlags address)
  | randomGet address length =>
    exact hneeds (needsMemory_access (Access.needsMemory_updating rfl))
  | clockResolution | fdClose | fdFdstatSetFlags | procExit => cases haddress

/-! ## Answers

What `body_detached` says of bodies, said of replies. A failure must not look like a success there:
`failureAnswer_ne_zero`. -/

/-- The body of a clock call does not fail with `success`, if the clock does not. -/
theorem errno_ne_success (hclock : host.clock ≠ .error .success) (hasks : call.asksClock = true) :
    Tells (· ≠ .success) (call.body host) := by
  have hstore (address : UInt32) (data : Bytes) :
      Tells (· ≠ .success) (access (Access.write address data)) := by
    rintro w _ w' h rfl
    cases tells_store address data w _ w' h
  cases call with
  | clockResolution clock => exact tells_checkClock clock
  | clockResGet clock address => exact (tells_checkClock clock).bind fun _ => hstore _ _
  | clockTimeGet clock precision address =>
    refine (tells_checkClock clock).bind fun _ => (tells_lift ?_).bind fun _ => hstore _ _
    rintro errno hfails rfl
    exact hclock hfails
  | _ => cases hasks

/-- `failureAnswer` is never zero, the answer of a success. -/
theorem failureAnswer_ne_zero (hclock : host.clock ≠ .error .success) {w w' : Workspace}
    {errno : ErrNo} (h : call.body host w = .error (.guest errno) w') :
    call.failureAnswer errno ≠ 0 := by
  by_cases hasks : call.asksClock = true
  · have hne := errno_ne_success hclock hasks w errno w' h
    have hanswer : call.failureAnswer errno = errno.code.toUInt64 := by
      cases call with
      | clockResolution | clockResGet | clockTimeGet => rfl
      | _ => cases hasks
    rw [hanswer]
    cases errno with
    | success => exact absurd rfl hne
    | _ => decide
  · -- any other call answers 8
    rw [failureAnswer_eq (Bool.not_eq_true _ ▸ hasks)]
    decide

/-- Without a memory, a call that `takesAddress` is answered with a success exactly if it is to
write strings and there are none, and fails fatally only with `noMemory`. Either way it changes
nothing and lets out no text. A clock that fails has some error to tell, so it is not `success`. -/
theorem gives_nothing_detached (hclock : host.clock ≠ .error .success)
    (haddress : call.takesAddress = true) (s : Session) :
    ((call.perform host s .detached).answer = .ok 0 ↔ call.strings? s.options = some []) ∧
      (∀ error, (call.perform host s .detached).answer = .error error → error = .noMemory) ∧
      (call.perform host s .detached).session = s ∧
      (call.perform host s .detached).memory = .detached ∧
      Event.stdoutTexts (call.perform host s .detached).events = [] ∧
      Event.stderrTexts (call.perform host s .detached).events = [] := by
  obtain ⟨hstdout, hstderr⟩ := texts_perform host call s .detached
  rw [hstdout, hstderr]
  have hbody := body_detached host haddress
    (rfl : ({ session := s, memory := .detached, events := [] } : Workspace).memory = .detached)
  split at hbody
  · next hnone =>
    have hrun : call.run host s .detached = .ok () _ := hbody
    obtain ⟨hanswer, hsession, hmemory⟩ := perform_of_ok hrun
    have hsuccess : call.successAnswer = 0 := by
      refine successAnswer_eq_zero ?_
      rintro clock rfl
      cases haddress
    rw [hanswer, hsession, hmemory, hrun, hsuccess]
    exact ⟨⟨fun _ => hnone, fun _ => rfl⟩, nofun, rfl, rfl, rfl, rfl⟩
  · next hsome =>
    obtain ⟨e, hrun⟩ := hbody
    change call.run host s .detached = .error e _ at hrun
    obtain ⟨hsession, hmemory⟩ := perform_of_error hrun
    rw [hsession, hmemory, hrun]
    cases e with
    | guest errno =>
      have hne := failureAnswer_ne_zero hclock hrun
      rw [answer_of_error hrun]
      refine ⟨⟨fun hzero => absurd (Except.ok.inj hzero) hne, fun hnone => absurd hnone hsome⟩,
        nofun, rfl, rfl, rfl, rfl⟩
    | fatal error =>
      -- the one fatal error of a body is the missing memory
      obtain ⟨_, rfl⟩ := (gentle_body host call).fatal _ error _ hrun
      rw [answer_of_fatal hrun]
      refine ⟨⟨nofun, fun hnone => absurd hnone hsome⟩, ?_, rfl, rfl, rfl, rfl⟩
      rintro _ ⟨⟩
      rfl

/-- An `fdRead` with no buffers does not take what is queued on standard input. -/
theorem empty_read_detached :
    let host := Host.ofTree FlatTree.empty
    let s := Session.initial.pushStdin [10, 20, 30]
    let reply := (Call.fdRead Fd.stdin 0 0 0).perform host s .detached
    reply.answer = .error .noMemory ∧ reply.session.stdin = [10, 20, 30] := by
  intro host s reply
  have haddress : (Call.fdRead Fd.stdin 0 0 0).takesAddress = true := rfl
  have hclock : host.clock ≠ .error .success := by decide
  obtain ⟨_, _, hsession, _⟩ := gives_nothing_detached hclock haddress s
  have hanswer : reply.answer = .error .noMemory := by decide
  exact ⟨hanswer, congrArg Session.stdin hsession⟩

end Call

end WasiHost
