import WasiHost.Call.Perform
import WasiHost.Proofs.Call.Open
import WasiHost.Proofs.Call.Read

/-!
# What performing a call can do

One relation says all that a call can do to a session, however its body ends, and every later
argument about sessions is a case analysis of it.

* **`Session.Moves`** — the ways in which calls change a session.
* **`Session.Moves.get_cases`** — what that can mean for a single descriptor.
* **`Call.moves_of_ok`**, **`Call.moves_of_error`** — every body moves the session in one of them.
* **`Call.keeps_of_error`** — a body that fails has let out no text, and only the calls that store
  piece by piece have touched guest memory.
* **`Call.run_of_answer_eq_zero`**, **`Call.run_of_answer_ne_zero`** — what the guest's answer tells
  about the body.
-/

namespace WasiHost

/-- What a call does to a session: `succeeded` tells how its body has ended. -/
inductive Session.Moves (host : Host) (s : Session) :
    Call → (succeeded : Bool) → Session → Prop where
  | stays (call : Call) (succeeded : Bool) : Moves host s call succeeded s
  | exits (code : UInt32) : Moves host s (.procExit code) true { s with exitCode := some code }
  | closes (fd : Fd) (table : DescriptorTable) (records : List LogRecord)
      (hclose : s.table.close fd = .ok (table, records)) :
      Moves host s (.fdClose fd) true { s with table := table }
  | flags (fd : Fd) (flags : UInt32) (d : Descriptor) (hget : s.table.get fd = .ok d) :
      Moves host s (.fdFdstatSetFlags fd flags) true
        { s with table := s.table.set fd (d.withFlags flags.toUInt16) }
  | serves (fd : Fd) (buffers count address : UInt32) (vectors : List IoVec) (data : Bytes)
      (s' : Session) (hserves : s.Serves host fd vectors data s') :
      Moves host s (.fdRead fd buffers count address) true s'
  /-- The content was loaded, but then the octets could not be moved. -/
  | loads (fd : Fd) (buffers count address : UInt32) (path : String) (offset : UInt64)
      (content : Option Bytes) (status : FdStat) (bytes : Bytes)
      (hget : s.table.get fd = .ok (.file path offset content status))
      (hbytes : host.loaded? path content = some bytes) :
      Moves host s (.fdRead fd buffers count address) false
        { s with table := s.table.set fd (.file path offset (some bytes) status) }
  | opens (fd : Fd) (dirFlags path pathLength : UInt32) (openFlags : OpenFlags)
      (rightsBase rightsInheriting : Rights) (fdFlags address : UInt32) (d : Descriptor) (new : Fd)
      (table : DescriptorTable) (hd : d.Opened) (hinsert : s.table.insert d = .ok (new, table)) :
      Moves host s (.pathOpen fd dirFlags path pathLength openFlags rightsBase rightsInheriting
        fdFlags address) true { s with table := table }
  /-- A descriptor was opened, but then its number could not be stored. -/
  | undoes (fd : Fd) (dirFlags path pathLength : UInt32) (openFlags : OpenFlags)
      (rightsBase rightsInheriting : Rights) (fdFlags address : UInt32) (d : Descriptor) (new : Fd)
      (opened table : DescriptorTable) (hd : d.Opened)
      (hinsert : s.table.insert d = .ok (new, opened))
      (hclose : opened.close new = .ok (table, [DescriptorTable.released new])) :
      Moves host s (.pathOpen fd dirFlags path pathLength openFlags rightsBase rightsInheriting
        fdFlags address) false { s with table := table }

/-- The descriptor that a call may leave in another state. -/
def Call.changes? : Call → Option Fd
  | fdClose fd | fdFdstatSetFlags fd _ | fdRead fd _ _ _ => some fd
  | _ => none

/-- What is open or not under a number stays so, unless the call `changes?` what is open there, or
is a `pathOpen` that hands the number out. -/
theorem Session.Moves.get_cases {host : Host} {s s' : Session} {call : Call} {succeeded : Bool}
    (h : s.Moves host call succeeded s') (hsound : s.table.Sound) (fd : Fd) :
    s'.table.get fd = s.table.get fd ∨
      (∃ d, s.table.get fd = .ok d) ∧ call.changes? = some fd ∨
      s.table.get fd = .error .badF ∧ call.name = .pathOpen ∧ succeeded = true ∧
        ∃ d table, s.table.insert d = .ok (fd, table) := by
  -- a call that changes one descriptor finds something open there, and puts nothing anywhere else
  have hset {fd' : Fd} {d d' : Descriptor} (hget : s.table.get fd' = .ok d)
      (hchanges : call.changes? = some fd') :
      (s.table.set fd' d').get fd = s.table.get fd ∨
        (∃ d, s.table.get fd = .ok d) ∧ call.changes? = some fd := by
    by_cases hfd : fd = fd'
    · subst hfd
      exact .inr ⟨⟨d, hget⟩, hchanges⟩
    · exact .inl (DescriptorTable.get_set_of_ne hfd)
  cases h with
  | stays => exact .inl rfl
  | exits code => exact .inl rfl
  | closes fd' table records hclose =>
    obtain ⟨old, hold, ⟨_, rfl, _⟩ | ⟨_, rfl, _⟩⟩ := DescriptorTable.close_eq_ok_iff.mp hclose
    · exact .inl rfl
    · by_cases hfd : fd = fd'
      · subst hfd
        exact .inr (.inl ⟨⟨old, hold⟩, rfl⟩)
      · exact .inl ((DescriptorTable.get_close hold fd).trans (if_neg hfd))
  | flags fd' flags d hget => exact (hset hget rfl).imp_right .inl
  | serves fd' buffers count address vectors data _ hserves =>
    cases hserves with
    | stdin k hget hk => exact .inl rfl
    | file path offset content status bytes moved hget hbytes hmoved =>
      exact (hset hget rfl).imp_right .inl
  | loads fd' buffers count address path offset content status bytes hget hbytes =>
    exact (hset hget rfl).imp_right .inl
  | opens _ _ _ _ _ _ _ _ _ d new table hd hinsert =>
    by_cases hfd : fd = new
    · -- the number that is handed out was not in use
      subst hfd
      have hnone := hsound.get_of_insert hinsert
      refine .inr (.inr ⟨?_, rfl, rfl, d, table, hinsert⟩)
      rw [DescriptorTable.get, hnone]
    · exact .inl ((hsound.get_insert hinsert fd).trans (if_neg hfd))
  | undoes _ _ _ _ _ _ _ _ _ d new opened table hd hinsert hclose =>
    obtain ⟨after, hclosed, hsame, _⟩ := hsound.close_insert hinsert
    cases hclose.symm.trans hclosed
    exact .inl (hsame fd)

namespace Call

open WasiHost.Action

/-- Whether a call stores its results piece by piece, so that it may fail between two of them. -/
def storesPiecemeal : Call → Bool
  | argsGet .. | argsSizesGet .. | environGet .. | environSizesGet .. | fdRead .. => true
  | _ => false

/-- The kinds of calls by what their bodies leave alone: quiet ones, those that tell the guest how
it was started, and six that are like no other. -/
inductive Kind (host : Host) : Call → Prop where
  | quiet (call : Call) (h : Quiet (call.body host)) : Kind host call
  | startup (call : Call) (hpieces : call.storesPiecemeal = true)
      (h : Keeps Workspace.outer (call.body host)) : Kind host call
  | close (fd : Fd) : Kind host (.fdClose fd)
  | flags (fd : Fd) (flags : UInt32) : Kind host (.fdFdstatSetFlags fd flags)
  | read (fd : Fd) (buffers count address : UInt32) : Kind host (.fdRead fd buffers count address)
  | write (fd : Fd) (buffers count address : UInt32) : Kind host (.fdWrite fd buffers count address)
  | open_ (fd : Fd) (dirFlags path pathLength : UInt32) (openFlags : OpenFlags)
      (rightsBase rightsInheriting : Rights) (fdFlags address : UInt32) :
      Kind host (.pathOpen fd dirFlags path pathLength openFlags rightsBase rightsInheriting fdFlags
        address)
  | exit (code : UInt32) : Kind host (.procExit code)

variable {host : Host} {call : Call} {w w' : Workspace}

/-- Every call is of one `Kind`. The invariants below split by kind, not by call. -/
theorem kind (host : Host) (call : Call) : call.Kind host := by
  cases call with
  | argsGet pointers strings => exact .startup _ rfl (keeps_outer_argsGet _ _)
  | argsSizesGet count size => exact .startup _ rfl (keeps_outer_argsSizesGet _ _)
  | environGet pointers strings => exact .startup _ rfl (keeps_outer_environGet _ _)
  | environSizesGet count size => exact .startup _ rfl (keeps_outer_environSizesGet _ _)
  | clockResolution clock => exact .quiet _ (quiet_of_keeps (keeps_checkClock _))
  | clockResGet clock address => exact .quiet _ (quiet_clockResGet _ _)
  | clockTimeGet clock precision address => exact .quiet _ (quiet_clockTimeGet _ _ _ _)
  | fdClose fd => exact .close fd
  | fdFdstatGet fd address => exact .quiet _ (quiet_fdFdstatGet _ _ _)
  | fdFdstatSetFlags fd flags => exact .flags fd flags
  | fdPrestatGet fd address => exact .quiet _ (quiet_fdPrestatGet _ _)
  | fdPrestatDirName fd address size => exact .quiet _ (quiet_fdPrestatDirName _ _ _)
  | fdRead fd buffers count address => exact .read fd buffers count address
  | fdSeek fd offset whence address => exact .quiet _ (quiet_fdSeek _ _)
  | fdWrite fd buffers count address => exact .write fd buffers count address
  | pathFilestatGet fd flags path pathLength address =>
    exact .quiet _ (quiet_pathFilestatGet _ _ _ _ _)
  | pathOpen fd dirFlags path pathLength openFlags rightsBase rightsInheriting fdFlags address =>
    exact .open_ fd dirFlags path pathLength openFlags rightsBase rightsInheriting fdFlags address
  | procExit code => exact .exit code
  | randomGet address length => exact .quiet _ (quiet_randomGet _ _ _)

/-! ## Bodies that end

What a body does is told by its `Call.Kind`. The quiet ones and those at start-up keep the session,
and of the six others each has its lemma about success and its lemma about failure. -/

theorem moves_of_session_eq {succeeded : Bool} {s s' : Session} (h : s' = s) :
    s.Moves host call succeeded s' :=
  h ▸ .stays call succeeded

/-- A body that succeeds `Moves` the session as its call says. -/
theorem moves_of_ok (h : call.body host w = .ok () w') :
    w.session.Moves host call true w'.session := by
  -- by the kind of the call, as in all that follows
  cases call.kind host with
  | quiet _ hquiet => exact moves_of_session_eq (congrArg Prod.fst (hquiet.outer.ok h))
  | startup _ _ hkeep => exact moves_of_session_eq (congrArg Prod.fst (hkeep.ok h))
  | close fd =>
    change closeDescriptor fd w = _ at h
    rw [closeDescriptor_eq] at h
    split at h
    · next table records hclose =>
      cases h
      exact .closes fd table records hclose
    · cases h
  | flags fd flags =>
    rcases fdFdstatSetFlags_eq_ok h with rfl | ⟨d, hget, rfl⟩
    · exact .stays _ _
    · exact .flags fd flags d hget
  | read fd buffers count address =>
    obtain ⟨_, vectors, data, _, hserves, _⟩ := fdRead_eq_ok h
    exact .serves fd buffers count address vectors data _ hserves
  | write fd buffers count address =>
    exact moves_of_session_eq ((keeps_session_fdWrite fd buffers count address).ok h)
  | open_ fd dirFlags path pathLength openFlags rightsBase rightsInheriting fdFlags address =>
    obtain ⟨name, stat, new, table, hnamed, _, hins, hsession, _⟩ := pathOpen_eq_ok h
    rw [hsession]
    have hopened := openedDescriptor_opened (canonical_namedPath hnamed) stat
      fdFlags.toUInt16 rightsBase rightsInheriting
    exact .opens fd dirFlags path pathLength openFlags rightsBase rightsInheriting fdFlags address
      _ new table hopened hins
  | exit code =>
    obtain ⟨events, hexit⟩ := procExit_eq code w
    cases hexit.symm.trans h
    exact .exits code

/-- A body that fails `Moves` the session as its call says. -/
theorem moves_of_error (hsound : w.session.table.Sound) {e : CallError}
    (h : call.body host w = .error e w') : w.session.Moves host call false w'.session := by
  cases call.kind host with
  | quiet _ hquiet => exact moves_of_session_eq (congrArg Workspace.session (hquiet.clean w e w' h))
  | startup _ _ hkeep =>
    exact moves_of_session_eq (congrArg Prod.fst (hkeep.failsClean w e w' h))
  | close fd =>
    exact moves_of_session_eq (congrArg Workspace.session (failsClean_closeDescriptor fd w e w' h))
  | flags fd flags =>
    exact moves_of_session_eq
      (congrArg Workspace.session (failsClean_fdFdstatSetFlags fd flags w e w' h))
  | read fd buffers count address =>
    obtain ⟨_, ⟨hsession, _⟩ | ⟨path, offset, content, status, bytes, hget, _, hbytes, hsession⟩⟩ :=
      fdRead_eq_error h
    · exact moves_of_session_eq hsession
    · rw [hsession]
      exact .loads fd buffers count address path offset content status bytes hget hbytes
  | write fd buffers count address =>
    exact moves_of_session_eq ((keeps_session_fdWrite fd buffers count address).failsClean w e w' h)
  | open_ fd dirFlags path pathLength openFlags rightsBase rightsInheriting fdFlags address =>
    -- an open that cannot tell its number closes it again
    obtain ⟨_, _, hsession | ⟨d, new, opened, table, hd, hins, hclose, hsession⟩⟩ :=
      pathOpen_eq_error hsound h
    · exact moves_of_session_eq hsession
    · rw [hsession]
      exact .undoes fd dirFlags path pathLength openFlags rightsBase rightsInheriting fdFlags
        address d new opened table hd hins hclose
  | exit code =>
    obtain ⟨events, hexit⟩ := procExit_eq code w
    -- an exit does not fail
    cases hexit.symm.trans h

/-- A body that fails has let out no text, and only what `storesPiecemeal` has touched guest
memory. -/
theorem keeps_of_error (hsound : w.session.table.Sound) {e : CallError}
    (h : call.body host w = .error e w') :
    w'.texts = w.texts ∧ (call.storesPiecemeal = false → w'.memory = w.memory) := by
  -- each kind fails clean in one of two ways, of everything or of everything but the log
  have hvisible {x : Action Unit} (hx : FailsClean Workspace.visible x) (hw : x w = .error e w') :
      w'.texts = w.texts ∧ w'.memory = w.memory := by
    have heq := hx w e w' hw
    exact ⟨congrArg (fun v => v.2.2) heq, congrArg (fun v => v.2.1) heq⟩
  have hclean {x : Action Unit} (hx : FailsClean id x) (hw : x w = .error e w') :
      w'.texts = w.texts ∧ (call.storesPiecemeal = false → w'.memory = w.memory) := by
    obtain ⟨htexts, hmemory⟩ := hvisible (hx.map Workspace.visible) hw
    exact ⟨htexts, fun _ => hmemory⟩
  cases call.kind host with
  | quiet _ hquiet => exact hclean hquiet.clean h
  | startup _ hpieces hkeep =>
    -- of these only the texts are certain
    have heq := hkeep.failsClean w e w' h
    refine ⟨congrArg Prod.snd heq, fun hnot => ?_⟩
    rw [hpieces] at hnot
    cases hnot
  | close fd => exact hclean (failsClean_closeDescriptor fd) h
  | flags fd flags => exact hclean (failsClean_fdFdstatSetFlags fd flags) h
  | read fd buffers count address =>
    obtain ⟨hevents, _⟩ := fdRead_eq_error h
    refine ⟨?_, nofun⟩
    simp only [Workspace.texts, hevents]
  | write fd buffers count address =>
    obtain ⟨htexts, hmemory⟩ := hvisible (failsClean_fdWrite fd buffers count address) h
    exact ⟨htexts, fun _ => hmemory⟩
  | open_ fd dirFlags path pathLength openFlags rightsBase rightsInheriting fdFlags address =>
    obtain ⟨hmemory, htexts, _⟩ := pathOpen_eq_error hsound h
    exact ⟨htexts, fun _ => hmemory⟩
  | exit code =>
    obtain ⟨events, hexit⟩ := procExit_eq code w
    cases hexit.symm.trans h

/-! ## Answers

From the body to the reply. The guest is told zero or an error number, and `answer_eq_zero_iff` is
how much of the body that tells. -/

variable {s : Session} {memory : Memory}

/-- The body of a call on a session and guest memory, with nothing let out yet. -/
def run (host : Host) (call : Call) (s : Session) (memory : Memory) :
    EStateM.Result CallError Workspace Unit :=
  call.body host { session := s, memory := memory, events := [] }

/-- Whether a call is about a clock: those answer the error number itself when they fail. -/
def asksClock : Call → Bool
  | clockResolution .. | clockResGet .. | clockTimeGet .. => true
  | _ => false

theorem perform_of_ok (h : call.run host s memory = .ok () w) :
    (call.perform host s memory).answer = .ok call.successAnswer ∧
      (call.perform host s memory).session = w.session ∧
      (call.perform host s memory).memory = w.memory := by
  unfold run at h
  unfold perform
  rw [h]
  exact ⟨rfl, rfl, rfl⟩

/-- `perform` of a call whose body has failed: session and memory are those that it has left. -/
theorem perform_of_error {e : CallError} (h : call.run host s memory = .error e w) :
    (call.perform host s memory).session = w.session ∧
      (call.perform host s memory).memory = w.memory := by
  unfold run at h
  unfold perform
  rw [h]
  exact ⟨rfl, rfl⟩

/-- `perform` adds log to the texts of the body, and no text. -/
theorem texts_perform (host : Host) (call : Call) (s : Session) (memory : Memory) :
    Event.stdoutTexts (call.perform host s memory).events =
        (endState (call.run host s memory)).texts.1 ∧
      Event.stderrTexts (call.perform host s memory).events =
        (endState (call.run host s memory)).texts.2 := by
  unfold run perform
  cases call.body host { session := s, memory := memory, events := [] } with
  | ok u w => exact ⟨Event.stdoutTexts_append_log _ _, Event.stderrTexts_append_log _ _⟩
  | error e w =>
    constructor
    · exact (Event.stdoutTexts_append_log _ [call.complaint e]).trans
        (Event.stdoutTexts_append_log _ _)
    · exact (Event.stderrTexts_append_log _ [call.complaint e]).trans
        (Event.stderrTexts_append_log _ _)

/-- `perform` tells the guest of a failure that is not fatal. -/
theorem answer_of_error {errno : ErrNo} (h : call.run host s memory = .error (.guest errno) w) :
    (call.perform host s memory).answer = .ok (call.failureAnswer errno) := by
  unfold run at h
  unfold perform
  rw [h]
  rfl

/-- `perform` passes a fatal failure on to the engine. -/
theorem answer_of_fatal {error : FatalError}
    (h : call.run host s memory = .error (.fatal error) w) :
    (call.perform host s memory).answer = .error error := by
  unfold run at h
  unfold perform
  rw [h]
  rfl

/-- Only `clockResolution` has a success that is not answered zero. -/
theorem successAnswer_eq_zero (h : ∀ clock, call ≠ .clockResolution clock) :
    call.successAnswer = 0 := by
  cases call with
  | clockResolution clock => exact absurd rfl (h clock)
  | _ => rfl

/-- All that does not `asksClock` answers the same error number. -/
theorem failureAnswer_eq (hclock : call.asksClock = false) (errno : ErrNo) :
    call.failureAnswer errno = ErrNo.badF.code.toUInt64 := by
  cases call with
  | clockResolution | clockResGet | clockTimeGet => cases hclock
  | _ => rfl

/-- A call that does not `asksClock` answers zero only if its body has succeeded. -/
theorem run_of_answer_eq_zero (hclock : call.asksClock = false)
    (h : (call.perform host s memory).answer = .ok 0) : ∃ w, call.run host s memory = .ok () w := by
  cases hrun : call.run host s memory with
  | ok u w => exact ⟨w, rfl⟩
  | error e w =>
    cases e with
    | fatal error =>
      rw [answer_of_fatal hrun] at h
      cases h
    | guest errno =>
      rw [answer_of_error hrun, failureAnswer_eq hclock] at h
      exact absurd (Except.ok.inj h) (by decide)

theorem answer_eq_zero_iff (hclock : call.asksClock = false) :
    (call.perform host s memory).answer = .ok 0 ↔ ∃ w, call.run host s memory = .ok () w := by
  refine ⟨run_of_answer_eq_zero hclock, ?_⟩
  rintro ⟨w, hrun⟩
  have hsuccess : call.successAnswer = 0 := by
    refine successAnswer_eq_zero ?_
    rintro clock rfl
    cases hclock
  rw [(perform_of_ok hrun).1, hsuccess]

/-- A call that does not answer zero has failed, or is `clockResolution`. -/
theorem run_of_answer_ne_zero (h : (call.perform host s memory).answer ≠ .ok 0) :
    (∃ e w, call.run host s memory = .error e w) ∨ ∃ clock, call = .clockResolution clock := by
  cases hrun : call.run host s memory with
  | error e w => exact .inl ⟨e, w, rfl⟩
  | ok u w =>
    have hanswer := (perform_of_ok hrun).1
    cases call with
    | clockResolution clock => exact .inr ⟨clock, rfl⟩
    | _ => exact absurd hanswer h

/-- A call that does not answer zero `Moves` its session as one that fails, lets out no text, and
leaves guest memory alone unless it `storesPiecemeal`. -/
theorem perform_of_answer_ne_zero (hsound : s.table.Sound)
    (h : (call.perform host s memory).answer ≠ .ok 0) :
    s.Moves host call false (call.perform host s memory).session ∧
      Event.stdoutTexts (call.perform host s memory).events = [] ∧
      Event.stderrTexts (call.perform host s memory).events = [] ∧
      (call.storesPiecemeal = false → (call.perform host s memory).memory = memory) := by
  obtain ⟨hstdout, hstderr⟩ := texts_perform host call s memory
  rw [hstdout, hstderr]
  cases hrun : call.run host s memory with
  | error e w =>
    obtain ⟨hsession, hmemory⟩ := perform_of_error hrun
    obtain ⟨htexts, hkept⟩ := keeps_of_error hsound hrun
    rw [hsession, hmemory, endState, htexts]
    exact ⟨moves_of_error hsound hrun, rfl, rfl, hkept⟩
  | ok u w =>
    obtain ⟨e, w', hfailed⟩ | ⟨clock, rfl⟩ := run_of_answer_ne_zero h
    · rw [hrun] at hfailed
      cases hfailed
    · -- the resolution of a clock is asked for, which changes nothing
      obtain rfl : w = { session := s, memory := memory, events := [] } :=
        (keeps_checkClock clock).ok hrun
      obtain ⟨_, hsession, hmemory⟩ := perform_of_ok hrun
      rw [hsession, hmemory]
      exact ⟨.stays _ _, rfl, rfl, fun _ => rfl⟩

/-- `perform` moves the session in one of the ways of `Moves`, and answers `successAnswer` if the
body has succeeded. -/
theorem perform_moves (host : Host) (call : Call) (memory : Memory) (h : s.table.Sound) :
    ∃ succeeded, s.Moves host call succeeded (call.perform host s memory).session ∧
      (succeeded = true → (call.perform host s memory).answer = .ok call.successAnswer) := by
  cases hrun : call.run host s memory with
  | ok u w =>
    obtain ⟨hanswer, hsession, _⟩ := perform_of_ok hrun
    rw [hsession]
    exact ⟨true, moves_of_ok hrun, fun _ => hanswer⟩
  | error e w =>
    -- a fatal failure moves the session as any other does
    rw [(perform_of_error hrun).1]
    exact ⟨false, moves_of_error h hrun, nofun⟩

/-- `dispatch` is `perform` of a call, or refuses and does nothing, whatever the state. -/
theorem dispatch_cases (name : String) (words : List UInt64) :
    (∃ call : Call, ∀ host s memory,
        dispatch host name words s memory = call.perform host s memory) ∨
      ∃ error, ∀ host s memory, dispatch host name words s memory =
        { answer := .error error, session := s, memory := memory, events := [] } := by
  unfold dispatch
  cases CallName.ofName? name with
  | none => exact .inr ⟨_, fun _ _ _ => rfl⟩
  | some callName =>
    cases hwords : ofWords? callName words with
    | none =>
      refine .inr ⟨.badArguments callName, fun host s memory => ?_⟩
      simp only [hwords]
    | some call =>
      refine .inl ⟨call, fun host s memory => ?_⟩
      simp only [hwords]

end Call

end WasiHost
